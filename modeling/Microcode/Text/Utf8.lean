import Microcode.Text.Octets

namespace Microcode
namespace Utf8

/-!
Text as octets, and a decoding that every octet string has.

The decoder is an automaton over single octets.  Between two characters it has
nothing pending; inside one it knows which octets may come next.  An octet that
cannot continue the pending character ends a maximal ill-formed piece: the piece
becomes one replacement character, and the octet is read again as a first one.
-/

/-- The octets of a text. -/
def encode (text : String) : Bytes :=
  text.toUTF8.data.toList

theorem encode_injective {left right : String}
    (equal : encode left = encode right) : left = right := by
  apply String.toByteArray_inj.mp
  apply ByteArray.ext
  exact Array.toList_inj.mp equal

def replacement : Char := '\uFFFD'

/-- A character read in part: its bits so far, the bounds of its next octet, and
the number of octets that follow that one.  No ASCII octet continues a character. -/
structure Pending where
  bits : Nat
  low : UInt8
  high : UInt8
  remaining : Nat
  beyond_ascii : 0x80 ≤ low

/-- A character inside which every octet that continues a character may come next. -/
def Pending.inside (bits remaining : Nat) : Pending :=
  ⟨bits, 0x80, 0xBF, remaining, by decide⟩

/-- What a first octet beyond ASCII announces.  The narrowed bounds exclude
overlong forms, surrogates, and values past the last code point. -/
def announced? (octet : UInt8) : Option Pending :=
  if 0xC2 ≤ octet ∧ octet ≤ 0xDF then some (.inside (octet.toNat - 0xC0) 0)
  else if octet = 0xE0 then some ⟨0x0, 0xA0, 0xBF, 1, by decide⟩
  else if octet = 0xED then some ⟨0xD, 0x80, 0x9F, 1, by decide⟩
  else if 0xE1 ≤ octet ∧ octet ≤ 0xEF then some (.inside (octet.toNat - 0xE0) 1)
  else if octet = 0xF0 then some ⟨0x0, 0x90, 0xBF, 2, by decide⟩
  else if octet = 0xF4 then some ⟨0x4, 0x80, 0x8F, 2, by decide⟩
  else if 0xF1 ≤ octet ∧ octet ≤ 0xF3 then some (.inside (octet.toNat - 0xF0) 2)
  else none

structure Decoder where
  text : String
  pending : Option Pending

namespace Decoder

def initial : Decoder where
  text := ""
  pending := none

/-- Read an octet between two characters. -/
def first (text : String) (octet : UInt8) : Decoder :=
  if octet < 0x80 then ⟨text.push (Char.ofNat octet.toNat), none⟩
  else
    match announced? octet with
    | some pending => ⟨text, some pending⟩
    | none => ⟨text.push replacement, none⟩

def step (decoder : Decoder) (octet : UInt8) : Decoder :=
  match decoder.pending with
  | none => first decoder.text octet
  | some pending =>
      if pending.low ≤ octet ∧ octet ≤ pending.high then
        let bits := pending.bits * 0x40 + (octet.toNat - 0x80)
        match pending.remaining with
        | 0 => ⟨decoder.text.push (Char.ofNat bits), none⟩
        | remaining + 1 => ⟨decoder.text, some (.inside bits remaining)⟩
      else first (decoder.text.push replacement) octet

/-- A character cut off by the end is ill-formed too. -/
def finish (decoder : Decoder) : String :=
  match decoder.pending with
  | none => decoder.text
  | some _ => decoder.text.push replacement

end Decoder

/-- The text of any octet string, with one replacement character for each maximal
ill-formed piece. -/
def decode (bytes : Bytes) : String :=
  (bytes.foldl Decoder.step Decoder.initial).finish

theorem Decoder.finish_step_of_ascii (decoder : Decoder) {octet : UInt8}
    (ascii : octet < 0x80) :
    (decoder.step octet).finish = decoder.finish.push (Char.ofNat octet.toNat) := by
  obtain ⟨text, pending⟩ := decoder
  cases pending with
  | none => simp [step, first, finish, ascii]
  | some pending =>
      have outside : ¬ (pending.low ≤ octet ∧ octet ≤ pending.high) := by
        intro inside
        have reached := UInt8.le_trans pending.beyond_ascii inside.1
        exact absurd ascii (UInt8.not_lt.mpr reached)
      simp [step, outside, first, finish, ascii]

/-- An ASCII octet at the end is a character of its own, whatever comes before. -/
theorem decode_append_ascii (bytes : Bytes) {octet : UInt8} (ascii : octet < 0x80) :
    decode (bytes ++ [octet]) = (decode bytes).push (Char.ofNat octet.toNat) := by
  rw [decode, List.foldl_append]
  exact Decoder.finish_step_of_ascii _ ascii

end Utf8
end Microcode
