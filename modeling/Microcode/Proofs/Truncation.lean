import Microcode.Proofs.Admission
import Microcode.Proofs.Placement

namespace Microcode

/-!
Numerals that end early, and what a strict reading makes of them.

A lenient reading takes the leading digits of a numeral and notes the numeral if they end before
its columns do.  A strict reading stops at the first octet that does not belong.  Both numerals
stand to the left of all bit groups, so a strict reading stops in a numeral whenever one of them
ends early, whatever the bit groups hold: in the first such numeral, behind its leading digits.
-/

namespace Hex

/-- The octet behind the leading digits is the one that is reported. -/
theorem exact_eq_error_iff {text : Bytes} {octet : UInt8} {offset : Nat} :
    exact text = .error (.notHex octet offset) ↔
      offset = consumed text ∧ text[offset]? = some octet := by
  unfold exact
  cases found : text[consumed text]? with
  | none =>
      have absent : ¬ (offset = consumed text ∧ text[offset]? = some octet) := by
        rintro ⟨rfl, here⟩
        cases found.symm.trans here
      simpa using absent
  | some other =>
      constructor
      · intro same
        cases same
        exact ⟨rfl, found⟩
      · rintro ⟨rfl, here⟩
        cases found.symm.trans here
        rfl

/-- Only hexadecimal faults are found in a numeral. -/
theorem exists_of_exact_eq_error {text : Bytes} {fault : DigitFault}
    (failed : exact text = .error fault) : ∃ octet offset, fault = .notHex octet offset := by
  unfold exact at failed
  split at failed
  · cases failed
  · cases failed
    exact ⟨_, _, rfl⟩

theorem exact_eq_error_iff_not_digits {text : Bytes} :
    (∃ fault, exact text = .error fault) ↔ ¬ ∀ octet ∈ text, isDigit octet := by
  rw [← exact_eq_ok_iff]
  cases exact text with
  | error fault => simp
  | ok value => simp

theorem number_of_digits {text : Bytes} (digits : ∀ octet ∈ text, isDigit octet) :
    number text = digitsNumber text := by
  rw [number, leading_eq_self_iff.mpr digits]

end Hex

/-- Nothing but numerals stands to the left of a numeral. -/
theorem Field.numerals_first :
    Field.all.Pairwise fun left right => right.kind = .hex → left.kind = .hex := by
  decide

namespace Record

theorem digitFault?_eq_notHex_iff {kind : FieldKind} {text : Bytes} {octet : UInt8} {offset : Nat} :
    digitFault? kind text = some (.notHex octet offset) ↔
      kind = .hex ∧ Hex.exact text = .error (.notHex octet offset) := by
  cases kind with
  | hex =>
      rw [digitFault?]
      cases Hex.exact text <;> simp
  | bits =>
      simp [digitFault?, Binary.fault?]

variable {record : Record} {field : Field}

theorem truncated_sublist (record : Record) : record.truncated.Sublist [.addr, .cn] := by
  rw [← Field.filter_hex]
  apply List.monotone_filter_right
  intro field early
  rw [decide_eq_true_eq] at early ⊢
  exact early.1

/-- A numeral is noted when a strict reading of it fails. -/
theorem mem_truncated_iff_exact :
    field ∈ record.truncated ↔
      field.kind = .hex ∧ ∃ fault, Hex.exact (record.text field) = .error fault := by
  rw [mem_truncated, Hex.exact_eq_error_iff_not_digits]

/-- The first numeral that ends early has none before it. -/
theorem head?_truncated_eq_some_iff :
    record.truncated.head? = some field ↔
      field ∈ record.truncated ∧ ∃ before behind, Field.all = before ++ field :: behind ∧
        ∀ earlier ∈ before, earlier ∉ record.truncated := by
  have noted (field : Field) :
      field ∈ record.truncated ↔
        field.kind = .hex ∧ Hex.consumed (record.text field) < field.width := by
    simp [truncated, field.mem_all]
  have first : record.truncated.head? = Field.all.find? fun field =>
      field.kind = .hex ∧ Hex.consumed (record.text field) < field.width :=
    List.head?_filter
  rw [first, List.find?_eq_some_iff_append]
  simp only [noted, Bool.not_eq_true', decide_eq_true_eq, decide_eq_false_iff_not]

/-- A strict reading stops in a numeral when this is the first one that ends early. -/
theorem fault?_eq_notHex_iff {octet : UInt8} {offset : Nat} :
    record.fault? = some ⟨field, .notHex octet offset⟩ ↔
      record.truncated.head? = some field ∧
        Hex.exact (record.text field) = .error (.notHex octet offset) := by
  rw [head?_truncated_eq_some_iff]
  constructor
  · intro found
    rcases List.findSome?_eq_some_iff.mp found with ⟨before, other, behind, divided, here, clean⟩
    rcases Option.map_eq_some_iff.mp here with ⟨cause, faulty, same⟩
    cases same
    rcases digitFault?_eq_notHex_iff.mp faulty with ⟨kind, failed⟩
    refine ⟨⟨mem_truncated_iff_exact.mpr ⟨kind, _, failed⟩, before, behind, divided, ?_⟩, failed⟩
    intro earlier member early
    have admitted := digitFault?_eq_none_iff.mp (Option.map_eq_none_iff.mp (clean earlier member))
    rcases mem_truncated.mp early with ⟨numeral, opened⟩
    rw [numeral] at admitted
    exact opened admitted
  · rintro ⟨⟨early, before, behind, divided, whole⟩, failed⟩
    have kind := (mem_truncated.mp early).1
    refine List.findSome?_eq_some_iff.mpr ⟨before, field, behind, divided, ?_, ?_⟩
    · rw [digitFault?_eq_notHex_iff.mpr ⟨kind, failed⟩]
      rfl
    · intro earlier member
      -- What stands to the left of a numeral is a numeral, and this one does not end early.
      have ordered := Field.numerals_first
      rw [divided, List.pairwise_append] at ordered
      have numeral := ordered.2.2 earlier member field List.mem_cons_self kind
      rw [Option.map_eq_none_iff, digitFault?_eq_none_iff, numeral]
      by_contra opened
      exact whole earlier member (mem_truncated.mpr ⟨numeral, opened⟩)

/-- A numeral that does not end early is read as the number of all its digits. -/
theorem exact_of_not_mem_truncated (numeral : field.kind = .hex)
    (whole : field ∉ record.truncated) :
    ∃ value, Hex.exact (record.text field) = .ok value ∧
      value.toNat = Hex.digitsNumber (record.text field) ∧
      Hex.number (record.text field) = value.toNat := by
  have digits : ∀ octet ∈ record.text field, Hex.isDigit octet := by
    by_contra opened
    exact whole (mem_truncated.mpr ⟨numeral, opened⟩)
  have short : (record.text field).length ≤ 8 := by
    rw [record.length_text]
    cases field <;> decide
  have number := Hex.toNat_value_of_length_le _ short
  exact ⟨_, Hex.exact_of_digits digits, number.trans (Hex.number_of_digits digits), number.symm⟩

/-- The numerals that a lenient reading notes are those that a strict one cannot take.  A strict
reading stops in a numeral when one is noted, in the first of them and behind its leading digits,
even if bit groups are at fault as well.  Where none is noted, the word has the numbers of all
digits. -/
theorem truncated_as_strict_reading_stops (record : Record) :
    record.truncated.Sublist [.addr, .cn] ∧
    (∀ field ∈ [Field.addr, Field.cn],
      field ∈ record.truncated ↔ ∃ fault, Hex.exact (record.text field) = .error fault) ∧
    ((∃ field octet offset, record.fault? = some ⟨field, .notHex octet offset⟩) ↔
      record.truncated ≠ []) ∧
    (∀ field octet offset, record.fault? = some ⟨field, .notHex octet offset⟩ →
      record.truncated.head? = some field ∧ offset = Hex.consumed (record.text field) ∧
        (record.text field)[offset]? = some octet) ∧
    (record.truncated = [] →
      ∃ address next, Hex.exact (record.text .addr) = .ok address ∧
        address.toNat = Hex.digitsNumber (record.text .addr) ∧
        Hex.exact (record.text .cn) = .ok next ∧
        next.toNat = Hex.digitsNumber (record.text .cn) ∧
        ∀ word ∈ [Word.pack record, Word.packRegular record],
          word.address.toNat = address.toNat ∧
          ∀ offset < 6,
            word.cell? (1 + offset) = some ((next.toNat / 4).testBit (5 - offset))) := by
  refine ⟨record.truncated_sublist, ?_, ?_, ?_, ?_⟩
  · intro field listed
    have numeral : field.kind = .hex := by
      revert field
      decide
    rw [mem_truncated_iff_exact, and_iff_right numeral]
  · constructor
    · rintro ⟨field, octet, offset, found⟩
      have first := (fault?_eq_notHex_iff.mp found).1
      exact List.ne_nil_of_mem (List.mem_of_head? first)
    · intro early
      have first := List.head?_eq_some_head early
      rcases mem_truncated_iff_exact.mp (List.head_mem early) with ⟨-, fault, failed⟩
      rcases Hex.exists_of_exact_eq_error failed with ⟨octet, offset, rfl⟩
      exact ⟨_, octet, offset, fault?_eq_notHex_iff.mpr ⟨first, failed⟩⟩
  · intro field octet offset found
    rcases fault?_eq_notHex_iff.mp found with ⟨first, failed⟩
    exact ⟨first, Hex.exact_eq_error_iff.mp failed⟩
  · intro none
    have whole (field : Field) : field ∉ record.truncated := none ▸ List.not_mem_nil
    rcases exact_of_not_mem_truncated rfl (whole .addr) with ⟨address, taken, digits, number⟩
    rcases exact_of_not_mem_truncated rfl (whole .cn) with ⟨next, taken', digits', number'⟩
    refine ⟨address, next, taken, digits, taken', digits', ?_⟩
    intro word packed
    constructor
    · rw [Word.address_of_packed packed, record.toNat_address, number]
    · intro offset inside
      rw [← number', ← record.bitAt_next inside]
      exact Word.cell?_slot packed .next List.mem_cons_self inside

/-- The next address ends early, and CH to its right is at fault as well. -/
def blurredRecord : Record where
  octets := Utf8.encode
    " BA0  F? 0x01 0001 110 01 ???? ?? 0010 0110 000 00 00 000 0000 ? 0 0 1 "
  blanks := by decide +kernel

/-- Both numerals are whole, though CH is at fault. -/
def legibleRecord : Record where
  octets := Utf8.encode
    " BA0  F3 0x01 0001 110 01 ???? ?? 0010 0110 000 00 00 000 0000 ? 0 0 1 "
  blanks := by decide +kernel

theorem truncated_as_strict_reading_stops_blurred :
    (blurredRecord.fault? = some ⟨.cn, .notHex Octet.question 1⟩ ∧
      blurredRecord.truncated.head? = some .cn ∧
      1 = Hex.consumed (blurredRecord.text .cn)) ∧
    legibleRecord.fault? = some ⟨.ch, .notBit 0x78 1⟩ ∧
    legibleRecord.truncated = [] ∧
    ∃ address, Hex.exact (legibleRecord.text .addr) = .ok address ∧ address.toNat = 0xBA0 ∧
      (Word.pack legibleRecord).address.toNat = 0xBA0 := by
  have stopped : blurredRecord.fault? = some ⟨.cn, .notHex Octet.question 1⟩ := by decide +kernel
  have whole : legibleRecord.truncated = [] := by decide +kernel
  rcases truncated_as_strict_reading_stops blurredRecord with ⟨-, -, -, located, -⟩
  rcases located _ _ _ stopped with ⟨first, offset, -⟩
  rcases truncated_as_strict_reading_stops legibleRecord with ⟨-, -, -, -, packed⟩
  rcases packed whole with ⟨address, next, taken, digits, -, -, words⟩
  have number : address.toNat = 0xBA0 := digits.trans (by decide +kernel)
  have word := (words (Word.pack legibleRecord) List.mem_cons_self).1
  exact ⟨⟨stopped, first, offset⟩, by decide +kernel, whole, address, taken, number,
    word.trans number⟩

end Record

end Microcode
