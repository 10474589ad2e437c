import Microcode.Proofs.Corruption
import Microcode.Proofs.Identity
import Microcode.Proofs.Rows
import Mathlib.Data.List.Forall2

namespace Microcode

/-!
What a rendering tells about its words.

Each row shows the address and the meaningful bits of its word, in every format.  A word that
comes from a record is determined by these, so a rendering determines the words that it was
made from.
-/

namespace Hex

/-- Whether an octet is a decimal digit or one of the letters. -/
def LetterCase.Writes (letters : LetterCase) (octet : UInt8) : Prop :=
  (Octet.zero ≤ octet ∧ octet ≤ 0x39) ∨
    (letters.firstLetter ≤ octet ∧ octet ≤ letters.firstLetter + 5)

instance (letters : LetterCase) (octet : UInt8) : Decidable (letters.Writes octet) :=
  inferInstanceAs (Decidable (_ ∨ _))

theorem writes_digit (letters : LetterCase) {value : Nat} (small : value < 16) :
    letters.Writes (digit letters value) := by
  revert value
  cases letters <;> decide

end Hex

namespace Word

/-- A word that comes from a record. -/
def Packed (word : Word) : Prop :=
  ∃ record, word ∈ [pack record, packRegular record]

theorem length_meaningfulText (word : Word) : word.meaningfulText.length = meaningfulBits := by
  rw [meaningfulText_eq_take, List.length_take, length_fullText]
  rfl

theorem map_bit_meaningfulText (word : Word) :
    word.meaningfulText.map Binary.bit = (List.range meaningfulBits).map word.bit := by
  apply List.ext_getElem?
  intro position
  rw [List.getElem?_map, List.getElem?_map]
  by_cases inside : position < meaningfulBits
  · rw [word.getElem?_meaningfulText inside, List.getElem?_range inside, Option.map_some,
      Binary.bit_digit, Option.map_some]
  · have beyond := Nat.le_of_not_lt inside
    rw [List.getElem?_eq_none (word.length_meaningfulText.trans_le beyond),
      List.getElem?_eq_none (List.length_range.trans_le beyond), Option.map_none, Option.map_none]

/-- The end mark of a packed word is clear. -/
theorem Packed.fullText_eq {word : Word} (packed : word.Packed) :
    word.fullText = word.meaningfulText ++ [Octet.zero] := by
  rcases packed with ⟨record, member⟩
  have clear : word.bit meaningfulBits = false := bit_of_le member (Nat.le_refl _)
  have last : word.fullText[meaningfulBits]? = some (Binary.digit (word.bit meaningfulBits)) := by
    simp [fullText, Binary.digits, bit, read]
  have whole : word.fullText = word.fullText.take (meaningfulBits + 1) :=
    (List.take_of_length_le word.length_fullText.le).symm
  rw [whole, List.take_add_one, last, clear, meaningfulText_eq_take]
  rfl

end Word

namespace Rendering

/-- What a row tells about the word that it was written for. -/
structure Shows (format : Format) (width : Width) (row : Row) (word : Word) : Prop where
  length : row.address.length = 3
  digits : ∀ octet ∈ row.address, (letters format).Writes octet
  address : ∃ value, Hex.exact row.address = .ok value ∧ value.toNat = word.address.toNat
  bits : (row.bits.take 55).map Binary.bit = (List.range 55).map word.bit
  /-- Behind the meaningful bits there is at most the end mark. -/
  rest : row.bits.drop 55 =
    match width with
    | .meaningful => []
    | .full => [Octet.zero]

theorem writes_address (letters : Hex.LetterCase) (address : BitVec addressBits) :
    ∀ octet ∈ Hex.address letters address, letters.Writes octet := by
  have small := Layout.addressDigits_lt address
  intro octet member
  rcases List.mem_map.mp (show octet ∈ (Layout.addressDigits address).map _ from member) with
    ⟨value, listed, rfl⟩
  exact Hex.writes_digit letters (small value listed)

theorem exact_address (letters : Hex.LetterCase) (address : BitVec addressBits) :
    ∃ value, Hex.exact (Hex.address letters address) = .ok value ∧
      value.toNat = address.toNat := by
  have length : (Hex.address letters address).length = 3 := rfl
  refine ⟨_, Hex.exact_of_digits (isDigit_address letters address), ?_⟩
  rw [Hex.toNat_value_of_length_le _ (by omega), Layout.number_address]

section Packed

variable {word other : Word} (format : Format) (width : Width)

theorem take_bitText (width : Width) (word : Word) :
    (bitText width word).take meaningfulBits = word.meaningfulText := by
  cases width with
  | full => exact word.meaningfulText_eq_take.symm
  | meaningful => exact List.take_of_length_le word.length_meaningfulText.le

theorem drop_bitText (packed : word.Packed) :
    (bitText width word).drop meaningfulBits =
      match width with
      | .meaningful => []
      | .full => [Octet.zero] := by
  cases width with
  | meaningful => exact List.drop_of_length_le word.length_meaningfulText.le
  | full =>
      rw [bitText, packed.fullText_eq]
      exact List.drop_left' word.length_meaningfulText

theorem shows_row (packed : word.Packed) :
    Shows format width (row format width word) word where
  length := rfl
  digits := writes_address (letters format) word.address
  address := exact_address (letters format) word.address
  bits := by
    rw [row, take_bitText]
    exact word.map_bit_meaningfulText
  rest := drop_bitText width packed

/-- The row of a packed word is the row of no other packed word. -/
theorem row_injective (first : word.Packed) (second : other.Packed)
    (same : row format width word = row format width other) : word = other := by
  have addresses : Hex.address (letters format) word.address =
      Hex.address (letters format) other.address := congrArg Row.address same
  have bits : bitText width word = bitText width other := congrArg Row.bits same
  rcases first with ⟨record, first⟩
  rcases second with ⟨record', second⟩
  apply (Word.packed_eq_iff first second).mpr
  constructor
  · apply BitVec.eq_of_toNat_eq
    rw [← Layout.number_address word.address (letters format), addresses,
      Layout.number_address]
  · rw [← take_bitText width word, bits, take_bitText]

theorem map_row_injective {words others : List Word} (first : ∀ word ∈ words, word.Packed)
    (second : ∀ word ∈ others, word.Packed)
    (same : words.map (row format width) = others.map (row format width)) : words = others := by
  induction words generalizing others with
  | nil => exact (List.map_eq_nil_iff.mp same.symm).symm
  | cons word words ih =>
      cases others with
      | nil => cases same
      | cons other others =>
          have parts := List.cons.inj same
          have firsts := List.forall_mem_cons.mp first
          have seconds := List.forall_mem_cons.mp second
          rw [row_injective format width firsts.1 seconds.1 parts.1,
            ih firsts.2 seconds.2 parts.2]

end Packed

/-- A rendering determines the words that it was made from.  It can be read back as one row
for each word, in their order, with an address of three digits that is read as the
address of the word, and with the bits of the word.  The bits are written in the same way
in all formats, and the full width only appends the clear end mark. -/
theorem rendering_determines_words :
    (∀ format width, ∀ words : List Word, (∀ word ∈ words, word.Packed) →
      ∃ rows, rows? format (render format width words) = some rows ∧
        List.Forall₂ (Shows format width) rows words) ∧
    (∀ format width, ∀ words others : List Word, (∀ word ∈ words, word.Packed) →
      (∀ word ∈ others, word.Packed) →
        (render format width words = render format width others ↔ words = others)) ∧
    (∀ format other width, ∀ words : List Word,
      (rows? format (render format width words)).map (·.map Row.bits) =
        (rows? other (render other width words)).map (·.map Row.bits)) ∧
    (∀ format, ∀ words : List Word, (∀ word ∈ words, word.Packed) →
      rows? format (render format .full words) =
        (rows? format (render format .meaningful words)).map
          (·.map fun row => { row with bits := row.bits ++ [Octet.zero] })) := by
  refine ⟨?_, ?_, ?_, ?_⟩
  · intro format width words packed
    refine ⟨_, rows?_render width format words, ?_⟩
    rw [List.forall₂_map_left_iff, List.forall₂_same]
    intro word member
    exact shows_row format width (packed word member)
  · intro format width words others first second
    constructor
    · intro same
      apply map_row_injective format width first second
      have read := congrArg (rows? format) same
      rw [rows?_render, rows?_render] at read
      exact Option.some.inj read
    · rintro rfl
      rfl
  · intro format other width words
    rw [rows?_render, rows?_render, Option.map_some, Option.map_some, List.map_map, List.map_map]
    rfl
  · intro format words packed
    rw [rows?_render, rows?_render, Option.map_some, List.map_map]
    congr 1
    apply List.map_congr_left
    intro word member
    exact congrArg (Row.mk _) (packed word member).fullText_eq

/-- Two different words of one address. -/
def twins : List Word :=
  [Word.pack Word.upperRecord, Word.pack Word.lowerRecord]

theorem rendering_of_twins :
    (∀ word ∈ twins, word.Packed) ∧
    render .json .meaningful twins ≠ render .json .meaningful twins.reverse ∧
    (∃ rows, rows? .vhdl (render .vhdl .full twins) = some rows ∧
      rows.map Row.address = [Utf8.encode "b60", Utf8.encode "b60"] ∧
      List.Forall₂ (Shows .vhdl .full) rows twins) ∧
    rows? .text (render .text .full twins) =
      (rows? .text (render .text .meaningful twins)).map
        (·.map fun row => { row with bits := row.bits ++ [Octet.zero] }) := by
  have packed : ∀ word ∈ twins, word.Packed := by
    intro word member
    rcases List.mem_pair.mp member with rfl | rfl
    · exact ⟨_, List.mem_cons_self⟩
    · exact ⟨_, List.mem_cons_self⟩
  have reversed : ∀ word ∈ twins.reverse, word.Packed :=
    fun word member => packed word (List.mem_reverse.mp member)
  rcases rendering_determines_words with ⟨read, distinct, -, lengthened⟩
  refine ⟨packed, ?_, ?_, lengthened .text twins packed⟩
  · intro same
    have swapped := (distinct .json .meaningful twins twins.reverse packed reversed).mp same
    exact absurd swapped (by decide)
  · rcases read .vhdl .full twins packed with ⟨rows, found, shown⟩
    refine ⟨rows, found, ?_, shown⟩
    rw [Option.some.inj (found.symm.trans (rows?_render .full .vhdl twins))]
    decide

end Rendering

end Microcode
