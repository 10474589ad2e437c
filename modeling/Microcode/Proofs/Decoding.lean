import Microcode.Text.Utf8
import Mathlib.Tactic.IntervalCases

namespace Microcode
namespace Utf8

/-!
The octets of a text are decoded to the text.

A character is one octet, or a first octet that announces up to three further ones with six bits
each.  The bounds on the octet behind the first one leave out forms that no character has, so
every octet of a character is within them, and what is read up to its last octet are its bits.
-/

theorem encode_ofList (chars : List Char) :
    encode (String.ofList chars) = chars.flatMap String.utf8EncodeChar := by
  rw [encode, String.toUTF8_eq_toByteArray, String.toByteArray_ofList]
  exact List.toList_data_toByteArray

/-! ## First octets -/

theorem announced?_of_two (bits : Nat) (above : 2 ≤ bits) (below : bits < 32) :
    ∃ pending, announced? (UInt8.ofNat (bits + 192)) = some pending ∧ pending.bits = bits ∧
      pending.remaining = 0 ∧ pending.low = 0x80 ∧ pending.high = 0xBF := by
  interval_cases bits <;> exact ⟨_, rfl, rfl, rfl, rfl, rfl⟩

/-- Small values have shorter forms, and a range of them belongs to no character. -/
theorem announced?_of_three (bits : Nat) (below : bits < 16) :
    ∃ pending, announced? (UInt8.ofNat (bits + 224)) = some pending ∧ pending.bits = bits ∧
      pending.remaining = 1 ∧ pending.low = (if bits = 0 then 0xA0 else 0x80) ∧
      pending.high = if bits = 13 then 0x9F else 0xBF := by
  interval_cases bits <;> exact ⟨_, rfl, rfl, rfl, rfl, rfl⟩

theorem announced?_of_four (bits : Nat) (below : bits < 5) :
    ∃ pending, announced? (UInt8.ofNat (bits + 240)) = some pending ∧ pending.bits = bits ∧
      pending.remaining = 2 ∧ pending.low = (if bits = 0 then 0x90 else 0x80) ∧
      pending.high = if bits = 4 then 0x8F else 0xBF := by
  interval_cases bits <;> exact ⟨_, rfl, rfl, rfl, rfl, rfl⟩

namespace Decoder

section Steps

variable {pending : Pending} {octet bits remaining : Nat}

theorem step_first (text : String) (beyond : 128 ≤ octet) (small : octet < 256)
    (announced : announced? (UInt8.ofNat octet) = some pending) :
    step ⟨text, none⟩ (UInt8.ofNat octet) = ⟨text, some pending⟩ := by
  have ascii : ¬ UInt8.ofNat octet < 0x80 := by
    rw [UInt8.lt_iff_toNat_lt, UInt8.toNat_ofNat_of_lt' small]
    exact Nat.not_lt.mpr beyond
  simp only [step, first, if_neg ascii, announced]

theorem within_bounds (small : bits < 64) (above : pending.low.toNat ≤ bits + 128)
    (below : bits + 128 ≤ pending.high.toNat) :
    (pending.low ≤ UInt8.ofNat (bits + 128) ∧ UInt8.ofNat (bits + 128) ≤ pending.high) ∧
      (UInt8.ofNat (bits + 128)).toNat - 0x80 = bits := by
  have octet : (UInt8.ofNat (bits + 128)).toNat = bits + 128 :=
    UInt8.toNat_ofNat_of_lt' (show bits + 128 < 256 by omega)
  rw [UInt8.le_iff_toNat_le, UInt8.le_iff_toNat_le, octet]
  exact ⟨⟨above, below⟩, Nat.add_sub_cancel bits 128⟩

theorem step_next (text : String) (more : pending.remaining = remaining + 1) (small : bits < 64)
    (above : pending.low.toNat ≤ bits + 128) (below : bits + 128 ≤ pending.high.toNat) :
    step ⟨text, some pending⟩ (UInt8.ofNat (bits + 128)) =
      ⟨text, some (.inside (pending.bits * 64 + bits) remaining)⟩ := by
  rcases within_bounds small above below with ⟨inside, low⟩
  simp only [step, if_pos inside, low, more]

theorem step_last (text : String) (last : pending.remaining = 0) (small : bits < 64)
    (above : pending.low.toNat ≤ bits + 128) (below : bits + 128 ≤ pending.high.toNat) :
    step ⟨text, some pending⟩ (UInt8.ofNat (bits + 128)) =
      ⟨text.push (Char.ofNat (pending.bits * 64 + bits)), none⟩ := by
  rcases within_bounds small above below with ⟨inside, low⟩
  simp only [step, if_pos inside, low, last]

end Steps

/-! ## Characters -/

section Characters

variable (text : String) {code : Nat}

theorem foldl_step_one (short : code ≤ 127) :
    [UInt8.ofNat code].foldl step ⟨text, none⟩ = ⟨text.push (Char.ofNat code), none⟩ := by
  have octet : (UInt8.ofNat code).toNat = code :=
    UInt8.toNat_ofNat_of_lt' (show code < 256 by omega)
  have ascii : UInt8.ofNat code < 0x80 := by
    rw [UInt8.lt_iff_toNat_lt, octet]
    exact Nat.lt_succ_of_le short
  simp only [List.foldl_cons, List.foldl_nil, step, first, if_pos ascii, octet]

theorem foldl_step_two (long : 128 ≤ code) (short : code ≤ 2047) :
    [UInt8.ofNat (code / 64 % 32 + 192), UInt8.ofNat (code % 64 + 128)].foldl step ⟨text, none⟩ =
      ⟨text.push (Char.ofNat code), none⟩ := by
  rcases announced?_of_two (code / 64 % 32) (by omega) (by omega) with
    ⟨pending, announced, bits, remaining, low, high⟩
  have whole : pending.bits * 64 + code % 64 = code := by omega
  rw [List.foldl_cons, List.foldl_cons, List.foldl_nil,
    step_first text (by omega) (by omega) announced,
    step_last text remaining (by omega) (by rw [low]; change 128 ≤ _; omega)
      (by rw [high]; change _ ≤ 191; omega), whole]

theorem foldl_step_three (long : 2048 ≤ code) (short : code ≤ 65535)
    (valid : code < 0xD800 ∨ 0xDFFF < code) :
    [UInt8.ofNat (code / 4096 % 16 + 224), UInt8.ofNat (code / 64 % 64 + 128),
      UInt8.ofNat (code % 64 + 128)].foldl step ⟨text, none⟩ =
      ⟨text.push (Char.ofNat code), none⟩ := by
  rcases announced?_of_three (code / 4096 % 16) (by omega) with
    ⟨pending, announced, bits, remaining, low, high⟩
  have above : pending.low.toNat ≤ code / 64 % 64 + 128 := by
    rw [low]
    split <;> simp only [UInt8.reduceToNat] <;> omega
  have below : code / 64 % 64 + 128 ≤ pending.high.toNat := by
    rw [high]
    split <;> simp only [UInt8.reduceToNat] <;> omega
  have whole : (pending.bits * 64 + code / 64 % 64) * 64 + code % 64 = code := by omega
  rw [List.foldl_cons, List.foldl_cons, List.foldl_cons, List.foldl_nil,
    step_first text (by omega) (by omega) announced,
    step_next text remaining (by omega) above below,
    step_last text rfl (by omega) (by simp [Pending.inside]) (by simp [Pending.inside]; omega)]
  rw [Pending.inside, whole]

theorem foldl_step_four (long : 65536 ≤ code) (short : code < 0x110000) :
    [UInt8.ofNat (code / 262144 % 8 + 240), UInt8.ofNat (code / 4096 % 64 + 128),
      UInt8.ofNat (code / 64 % 64 + 128), UInt8.ofNat (code % 64 + 128)].foldl step ⟨text, none⟩ =
      ⟨text.push (Char.ofNat code), none⟩ := by
  rcases announced?_of_four (code / 262144 % 8) (by omega) with
    ⟨pending, announced, bits, remaining, low, high⟩
  have above : pending.low.toNat ≤ code / 4096 % 64 + 128 := by
    rw [low]
    split <;> simp only [UInt8.reduceToNat] <;> omega
  have below : code / 4096 % 64 + 128 ≤ pending.high.toNat := by
    rw [high]
    split <;> simp only [UInt8.reduceToNat] <;> omega
  have whole : ((pending.bits * 64 + code / 4096 % 64) * 64 + code / 64 % 64) * 64 + code % 64 =
      code := by
    omega
  rw [List.foldl_cons, List.foldl_cons, List.foldl_cons, List.foldl_cons, List.foldl_nil,
    step_first text (by omega) (by omega) announced,
    step_next text remaining (by omega) above below,
    step_next text rfl (by omega) (by simp [Pending.inside]) (by simp [Pending.inside]; omega),
    step_last text rfl (by omega) (by simp [Pending.inside]) (by simp [Pending.inside]; omega)]
  rw [Pending.inside, Pending.inside, whole]

/-- The octets of a character are read as the character. -/
theorem foldl_step_char (char : Char) :
    (String.utf8EncodeChar char).foldl step ⟨text, none⟩ = ⟨text.push char, none⟩ := by
  have valid : char.val.toNat < 0xD800 ∨ 0xDFFF < char.val.toNat ∧ char.val.toNat < 0x110000 :=
    char.valid
  have whole : Char.ofNat char.val.toNat = char := Char.ofNat_toNat char
  unfold String.utf8EncodeChar
  generalize char.val.toNat = code at valid whole
  rw [← whole]
  dsimp only
  split
  case isTrue one => exact foldl_step_one text one
  split
  case isTrue two => exact foldl_step_two text (by omega) two
  split
  case isTrue three => exact foldl_step_three text (by omega) three (by omega)
  case isFalse => exact foldl_step_four text (by omega) (by omega)

/-- Between two characters nothing is pending, so the characters of a text are read one by one. -/
theorem foldl_step_chars (chars : List Char) :
    (chars.flatMap String.utf8EncodeChar).foldl step ⟨text, none⟩ =
      ⟨text ++ String.ofList chars, none⟩ := by
  induction chars generalizing text with
  | nil => simp
  | cons char chars ih =>
      rw [List.flatMap_cons, List.foldl_append, foldl_step_char, ih]
      apply congrArg (Decoder.mk · none)
      apply String.toList_inj.mp
      simp

end Characters

end Decoder

/-- A text is read again from its octets. -/
theorem decode_encode (text : String) : decode (encode text) = text := by
  have octets := encode_ofList text.toList
  rw [String.ofList_toList] at octets
  rw [decode, octets, Decoder.initial, Decoder.foldl_step_chars, String.ofList_toList]
  exact String.empty_append

end Utf8
end Microcode
