import Microcode.Proofs.Bits
import Microcode.Proofs.Classification
import Microcode.Proofs.Numerals

namespace Microcode

/-!
Where the contents of a line stand in its word.

No position lies in two slots, and no parity bit lies in a slot, so what a slot holds
survives the passes that store and invert parity bits.
-/

namespace Slot

/-- The slots keep apart from each other. -/
theorem at?_of_mem {slot : Slot} (member : slot ∈ all) {offset : Nat}
    (inside : offset < slot.length) : at? (slot.start + offset) = some slot := by
  have apart : ∀ slot ∈ all, ∀ offset < slot.length, at? (slot.start + offset) = some slot := by
    decide
  exact apart slot member offset inside

/-- No slot reaches past the last bit that carries meaning. -/
theorem start_add_length_le {slot : Slot} (member : slot ∈ all) :
    slot.start + slot.length ≤ meaningfulBits := by
  have ends : ∀ slot ∈ all, slot.start + slot.length ≤ meaningfulBits := by decide
  exact ends slot member

theorem start_add_lt {slot : Slot} (member : slot ∈ all) {offset : Nat}
    (inside : offset < slot.length) : slot.start + offset < meaningfulBits :=
  Nat.lt_of_lt_of_le (Nat.add_lt_add_left inside slot.start) (start_add_length_le member)

theorem at?_of_le {position : Nat} (beyond : meaningfulBits ≤ position) :
    at? position = none := by
  apply List.find?_eq_none.mpr
  intro slot member covered
  have bound := start_add_length_le member
  simp only [covers, Bool.and_eq_true, decide_eq_true_eq] at covered
  omega

/-- The slots keep apart from the parity bits. -/
theorem start_add_ne_position {slot : Slot} (member : slot ∈ all) {offset : Nat}
    (inside : offset < slot.length) (bit : ParityBit) : bit.position.val ≠ slot.start + offset := by
  have apart : ∀ bit ∈ ParityBit.all, ∀ slot ∈ all, ∀ offset < slot.length,
      bit.position.val ≠ slot.start + offset := by
    decide
  exact apart bit bit.mem_all slot member offset inside

end Slot

theorem ParityBit.position_ne_of_le {position : Nat} (beyond : meaningfulBits ≤ position)
    (bit : ParityBit) : bit.position.val ≠ position := by
  have before : bit.position.val < meaningfulBits := by cases bit <;> decide
  omega

namespace Field

/-- Where the description of the word puts the bit groups. -/
def start? : Field → Option Nat
  | addr => none
  | cn => none
  | ch => some 9
  | cl => some 13
  | cm => some 17
  | cu => some 20
  | ca => some 22
  | cb => some 26
  | ck => some 28
  | pk => some 32
  | cd => some 34
  | cf => some 38
  | cg => some 41
  | cv => some 43
  | cc => some 45
  | cs => some 48
  | aa => some 52
  | as => some 53
  | ak => some 54

theorem kind_of_start? {field : Field} {start : Nat} (placed : field.start? = some start) :
    field.kind = .bits := by
  cases field
  case addr => cases placed
  case cn => cases placed
  all_goals rfl

theorem mem_slots_of_start? {field : Field} {start : Nat} (placed : field.start? = some start) :
    ⟨field, start, field.width⟩ ∈ Slot.all := by
  cases field
  case addr => cases placed
  case cn => cases placed
  all_goals cases placed; decide

end Field

namespace Record

variable (record : Record)

theorem getElem?_text {field : Field} {offset : Nat} (inside : offset < field.width) :
    (record.text field)[offset]? = record.octets[field.column + offset]? := by
  rw [text, List.getElem?_take_of_lt inside, List.getElem?_drop]

/-! ## The bits of single fields -/

theorem bits_of_kind {field : Field} (group : field.kind = .bits) :
    record.bits field = (record.text field).map Binary.bit := by
  cases field
  case addr => cases group
  case cn => cases group
  all_goals rfl

/-- An address and the bits of a field depend on the text of the field alone. -/
theorem address_congr {record other : Record} (same : record.text .addr = other.text .addr) :
    record.address = other.address := by
  rw [address, address, same]

theorem bits_congr {record other : Record} {field : Field}
    (same : record.text field = other.text field) : record.bits field = other.bits field := by
  cases kind : field.kind with
  | bits => rw [bits_of_kind record kind, bits_of_kind other kind, same]
  | hex =>
      cases field
      case addr => rw [bits, bits, address_congr same]
      case cn => rw [bits, bits, same]
      all_goals cases kind

/-- Three digits fit into an address. -/
theorem number_addr_lt : Hex.number (record.text .addr) < 2 ^ addressBits := by
  have width : (record.text .addr).length = 3 := record.length_text .addr
  have bound := Hex.number_lt (record.text .addr)
  rwa [width] at bound

theorem toNat_address : record.address.toNat = Hex.number (record.text .addr) := by
  have width : (record.text .addr).length = 3 := record.length_text .addr
  have bound := record.number_addr_lt
  rw [address, BitVec.toNat_ofNat, Hex.toNat_value_of_length_le _ (by omega),
    Nat.mod_eq_of_lt bound]

/-- The six digits that are kept of the next address are those of its quarter. -/
theorem getD_bits_cn {offset : Nat} (inside : offset < 6) :
    (record.bits .cn).getD offset false =
      (Hex.number (record.text .cn) / 4).testBit (5 - offset) := by
  have width : (record.text .cn).length = 2 := record.length_text .cn
  have low : 8 - 1 - offset = 5 - offset + 2 := by omega
  have number := Hex.toNat_value_of_length_le (record.text .cn) (by omega)
  calc
    (record.bits .cn).getD offset false =
        (Hex.value (record.text .cn)).toBitVec.getLsbD (8 - 1 - offset) := by
      have here : offset < (record.bits .cn).length := by
        rw [bits, Binary.length_bits]
        omega
      rw [List.getD_eq_getElem?_getD, List.getElem?_eq_getElem here, Option.getD_some]
      exact Binary.getElem_bits _ _ _ here
    _ = (Hex.number (record.text .cn)).testBit (5 - offset + 2) := by
      rw [← number, low]
      rfl
    _ = (Hex.number (record.text .cn) / 4).testBit (5 - offset) := by
      rw [show 4 = 2 ^ 2 from rfl, Nat.testBit_div_two_pow, Nat.add_comm]

/-! ## The bits at single positions -/

theorem bitAt_slot (slot : Slot) (member : slot ∈ Slot.all) {offset : Nat}
    (inside : offset < slot.length) :
    record.bitAt (slot.start + offset) = (record.bits slot.field).getD offset false := by
  rw [bitAt, Slot.at?_of_mem member inside]
  simp

theorem bitAt_next {offset : Nat} (inside : offset < 6) :
    record.bitAt (1 + offset) = (Hex.number (record.text .cn) / 4).testBit (5 - offset) := by
  rw [← record.getD_bits_cn inside]
  exact record.bitAt_slot .next List.mem_cons_self inside

/-- A bit group sets exactly the positions of its ones. -/
theorem bitAt_group {field : Field} {start : Nat} (placed : field.start? = some start)
    {offset : Nat} (inside : offset < field.width) :
    record.bitAt (start + offset) =
      decide (record.octets[field.column + offset]? = some Octet.one) := by
  have slot := record.bitAt_slot _ (Field.mem_slots_of_start? placed) inside
  rw [slot, record.bits_of_kind (Field.kind_of_start? placed), List.getD_eq_getElem?_getD,
    List.getElem?_map, record.getElem?_text inside]
  cases record.octets[field.column + offset]? with
  | none => rfl
  | some octet => simp [Binary.bit, beq_eq_decide]

theorem bitAt_of_le {position : Nat} (beyond : meaningfulBits ≤ position) :
    record.bitAt position = false := by
  rw [bitAt, Slot.at?_of_le beyond]

end Record

namespace Word

theorem read_fieldBits (record : Record) (position : Nat) :
    read (fieldBits record) position = record.bitAt position := by
  unfold read
  by_cases inside : position < wordBits
  · rw [Vector.getElem?_eq_getElem inside, Option.getD_some, getElem_fieldBits]
  · have beyond : meaningfulBits ≤ position := Nat.le_trans (by decide) (Nat.le_of_not_lt inside)
    rw [Vector.getElem?_eq_none (Nat.le_of_not_lt inside), Option.getD_none,
      record.bitAt_of_le beyond]

/-- Away from the parity bits, regular words and words with inversions hold the bits of
the fields. -/
theorem bit_eq_bitAt {record : Record} {word : Word}
    (packed : word ∈ [pack record, packRegular record]) {position : Nat}
    (apart : ∀ bit : ParityBit, bit.position.val ≠ position) :
    word.bit position = record.bitAt position := by
  have regular : (packRegular record).bit position = record.bitAt position := by
    rw [bit, packRegular, read_foldl_cover _ _ fun coverage _ => apart coverage.bit,
      read_set, if_neg (apart .pa), read_fieldBits]
  rcases List.mem_pair.mp packed with rfl | rfl
  · have kept : position ∉ (Erratum.invertedAt record.address.toNat).positions := by
      intro inverted
      rcases List.mem_map.mp inverted with ⟨bit, -, here⟩
      exact apart bit here
    rw [bit_pack, regular, decide_eq_false kept, Bool.xor_false]
  · exact regular

section Packed

variable {record : Record} {word : Word} (packed : word ∈ [pack record, packRegular record])

include packed

theorem cell?_slot (slot : Slot) (member : slot ∈ Slot.all) {offset : Nat}
    (inside : offset < slot.length) :
    word.cell? (slot.start + offset) = some (record.bitAt (slot.start + offset)) := by
  have within : slot.start + offset < cells := by
    have ends := Slot.start_add_lt member inside
    exact Nat.lt_of_lt_of_le ends (by decide)
  rw [cell?_eq_bit word within, bit_eq_bitAt packed (Slot.start_add_ne_position member inside)]

theorem bit_of_le {position : Nat} (beyond : meaningfulBits ≤ position) :
    word.bit position = false := by
  rw [bit_eq_bitAt packed (ParityBit.position_ne_of_le beyond), record.bitAt_of_le beyond]

theorem cell?_of_le {position : Nat} (beyond : meaningfulBits ≤ position)
    (inside : position < cells) : word.cell? position = some false := by
  rw [cell?_eq_bit word inside, bit_of_le packed beyond]

theorem address_of_packed : word.address = record.address := by
  rcases List.mem_pair.mp packed with rfl | rfl <;> rfl

end Packed

/-! ## Texts of words -/

theorem length_fullText (word : Word) : word.fullText.length = wordBits := by
  rw [fullText, Binary.digits, List.length_map, Vector.length_toList]

theorem mem_fullText {word : Word} {octet : UInt8} (member : octet ∈ word.fullText) :
    octet = Octet.zero ∨ octet = Octet.one := by
  rcases List.mem_map.mp member with ⟨bit, -, rfl⟩
  cases bit with
  | false => exact Or.inl rfl
  | true => exact Or.inr rfl

theorem meaningfulText_eq_take (word : Word) :
    word.meaningfulText = word.fullText.take meaningfulBits :=
  List.map_take

theorem getElem?_meaningfulText (word : Word) {position : Nat}
    (inside : position < meaningfulBits) :
    word.meaningfulText[position]? = some (Binary.digit (word.bit position)) := by
  have within : position < wordBits := Nat.lt_trans inside (by decide)
  simp [meaningfulText, Binary.digits, bit, read, inside, within]

theorem bit_eq_of_meaningfulText {left right : Word}
    (same : left.meaningfulText = right.meaningfulText) {position : Nat}
    (inside : position < meaningfulBits) : left.bit position = right.bit position := by
  have digits : some (Binary.digit (left.bit position)) =
      some (Binary.digit (right.bit position)) := by
    rw [← left.getElem?_meaningfulText inside, ← right.getElem?_meaningfulText inside, same]
  have bits := congrArg Binary.bit (Option.some.inj digits)
  rwa [Binary.bit_digit, Binary.bit_digit] at bits

/-! ## The layout of packed words -/

/-- The layout of a word, read off the line that it was packed from.  The address and
the next address are numerals that may end early, and a bit group sets the positions of
its ones; whatever else a group holds leaves a position clear.  Behind the last group
nothing is set, so the text of a word consists of binary digits only. -/
theorem layout_of_record {accepted : TagSet} {strictness : Strictness} {text : Bytes}
    {record : Record} (found : Line.classify accepted strictness text = .ok (.record record)) :
    ∀ word ∈ [pack record, packRegular record],
      (word.address.toNat = Hex.number (Field.addr.slice text) ∧
        Hex.number (Field.addr.slice text) ≤ 0xFFF) ∧
      (Hex.number (Field.cn.slice text) ≤ 0xFF ∧
        ∀ offset < 6, word.cell? (1 + offset) =
          some ((Hex.number (Field.cn.slice text) / 4).testBit (5 - offset))) ∧
      (∀ (field : Field) (start : Nat), field.start? = some start → ∀ offset < field.width,
        word.cell? (start + offset) =
          some (decide (text[field.column + offset]? = some Octet.one))) ∧
      (∀ position, 55 ≤ position → position < 64 → word.cell? position = some false) ∧
      word.fullText.length = 56 ∧
      (∀ octet ∈ word.fullText, octet = Octet.zero ∨ octet = Octet.one) ∧
      word.meaningfulText = word.fullText.take 55 := by
  intro word packed
  rw [Line.slice_of_record found, Line.slice_of_record found]
  refine ⟨⟨?_, ?_⟩, ⟨?_, ?_⟩, ?_, ?_, word.length_fullText, fun _ => mem_fullText,
    word.meaningfulText_eq_take⟩
  · rw [address_of_packed packed, record.toNat_address]
  · exact Nat.le_of_lt_succ record.number_addr_lt
  · have bound := Hex.number_lt (record.text .cn)
    rw [record.length_text] at bound
    exact Nat.le_of_lt_succ bound
  · intro offset inside
    rw [← record.bitAt_next inside]
    exact cell?_slot packed .next List.mem_cons_self inside
  · intro field start placed offset inside
    have ends := field.column_add_width_le
    have fits : field.column + offset ≤ 70 := by omega
    rw [Line.getElem?_of_record found fits, ← record.bitAt_group placed inside]
    exact cell?_slot packed _ (Field.mem_slots_of_start? placed) inside
  · intro position beyond inside
    exact cell?_of_le packed beyond inside

/-- A line whose numerals end early. -/
def openLine : Bytes :=
  Utf8.encode " B6?  ?F 0001 0001 110 01 ???? ?? 0010 0110 000 00 00 000 0000 ? 0 0 1 # QA001:C2 A20\r"

def openRecord : Record where
  octets := Line.dropReturn openLine
  blanks := by decide

theorem layout_of_openLine :
    Line.classify .standard .lenient openLine = .ok (.record openRecord) ∧
    (pack openRecord).address.toNat = 0xB6 ∧
    (∀ offset < 6, (pack openRecord).cell? (1 + offset) = some false) ∧
    (∀ offset < 4, (pack openRecord).cell? (22 + offset) = some false) ∧
    (pack openRecord).cell? 32 = some true := by
  have found : Line.classify .standard .lenient openLine = .ok (.record openRecord) := by
    apply Line.classify_eq_record_iff.mpr
    exact ⟨rfl, by decide, fun impossible => nomatch impossible⟩
  rcases layout_of_record found (pack openRecord) List.mem_cons_self with
    ⟨⟨address, -⟩, ⟨-, next⟩, groups, -⟩
  refine ⟨found, address.trans (by decide), ?_, ?_, ?_⟩
  · intro offset inside
    rw [next offset inside]
    revert offset
    decide
  · intro offset inside
    rw [groups .ca 22 rfl offset inside]
    revert offset
    decide
  · exact groups .pk 32 rfl 0 (by decide)

end Word

end Microcode
