import Microcode.Proofs.Placement
import Microcode.Proofs.Written

namespace Microcode

/-!
What a packed word tells about its record, and which words there are.

A word keeps the address, the six high bits of the next address and the ones of the bit
groups.  Parity bits and inversions are computed from these alone, so records that agree
on them have the same word.  Nothing else limits the words: any contents can be written
as a line that a strict reading accepts.
-/

namespace Field

theorem start?_of_kind {field : Field} (group : field.kind = .bits) :
    ∃ start, field.start? = some start := by
  cases field
  case addr => cases group
  case cn => cases group
  all_goals exact ⟨_, rfl⟩

end Field

namespace Slot

/-- Besides the next address, only bit groups have their place in a word. -/
theorem eq_next_or_group {slot : Slot} (member : slot ∈ all) :
    slot = next ∨
      ∃ field start, field.start? = some start ∧ slot = ⟨field, start, field.width⟩ := by
  rcases List.mem_cons.mp member with same | group
  · exact Or.inl same
  · have placed : ∀ entry ∈ placement, entry.1.start? = some entry.2 := by decide
    rcases List.mem_map.mp group with ⟨⟨field, start⟩, listed, rfl⟩
    exact Or.inr ⟨field, start, placed _ listed, rfl⟩

end Slot

/-! ## The data of a record -/

/-- The octets of a field that are ones agree; all other octets may differ. -/
def Field.SameOnes (field : Field) (record other : Record) : Prop :=
  ∀ offset < field.width,
    (record.text field)[offset]? = some Octet.one ↔ (other.text field)[offset]? = some Octet.one

namespace Record

/-- What two records have in common when they stand for the same word. -/
structure SameData (record other : Record) : Prop where
  address : Hex.number (record.text .addr) = Hex.number (other.text .addr)
  /-- The two low bits of the next address do not count. -/
  next : Hex.number (record.text .cn) / 4 = Hex.number (other.text .cn) / 4
  groups : ∀ field : Field, field.kind = .bits → field.SameOnes record other

variable {record other : Record}

/-- Positions outside all slots are clear, so records that agree within the slots agree
everywhere. -/
theorem bitAt_congr
    (same : ∀ slot ∈ Slot.all, ∀ offset < slot.length,
      record.bitAt (slot.start + offset) = other.bitAt (slot.start + offset))
    (position : Nat) : record.bitAt position = other.bitAt position := by
  cases found : Slot.at? position with
  | none => rw [bitAt, bitAt, found]
  | some slot =>
      have member : slot ∈ Slot.all := List.mem_of_find?_eq_some found
      have covered := List.find?_some found
      simp only [Slot.covers, Bool.and_eq_true, decide_eq_true_eq] at covered
      have here := same slot member (position - slot.start) (by omega)
      rwa [Nat.add_sub_cancel' covered.1] at here

theorem bitAt_of_texts (texts : ∀ field, record.text field = other.text field) (position : Nat) :
    record.bitAt position = other.bitAt position := by
  apply bitAt_congr
  intro slot member offset inside
  rw [record.bitAt_slot slot member inside, other.bitAt_slot slot member inside,
    bits_congr (texts slot.field)]

theorem next_lt (record : Record) : Hex.number (record.text .cn) / 4 < 2 ^ 6 := by
  have width : (record.text .cn).length = 2 := record.length_text .cn
  have bound := Hex.number_lt (record.text .cn)
  rw [width] at bound
  omega

theorem next_eq_iff :
    Hex.number (record.text .cn) / 4 = Hex.number (other.text .cn) / 4 ↔
      ∀ offset < 6, record.bitAt (1 + offset) = other.bitAt (1 + offset) := by
  constructor
  · intro same offset inside
    rw [bitAt_next record inside, bitAt_next other inside, same]
  · intro same
    apply Nat.eq_of_testBit_eq
    intro index
    by_cases inside : index < 6
    · have here := same (5 - index) (by omega)
      rw [bitAt_next record (by omega), bitAt_next other (by omega)] at here
      rwa [show 5 - (5 - index) = index by omega] at here
    · have high : 2 ^ 6 ≤ 2 ^ index := Nat.pow_le_pow_right (by decide) (by omega)
      rw [Nat.testBit_lt_two_pow (Nat.lt_of_lt_of_le record.next_lt high),
        Nat.testBit_lt_two_pow (Nat.lt_of_lt_of_le other.next_lt high)]

theorem sameOnes_iff {field : Field} {start : Nat} (placed : field.start? = some start) :
    field.SameOnes record other ↔
      ∀ offset < field.width, record.bitAt (start + offset) = other.bitAt (start + offset) := by
  apply forall₂_congr
  intro offset inside
  rw [bitAt_group record placed inside, bitAt_group other placed inside,
    record.getElem?_text inside, other.getElem?_text inside, decide_eq_decide]

/-- The data of a record are its address and its bits at the positions of a word. -/
theorem sameData_iff :
    record.SameData other ↔
      record.address = other.address ∧
        ∀ position, record.bitAt position = other.bitAt position := by
  constructor
  · intro same
    refine ⟨?_, bitAt_congr ?_⟩
    · apply BitVec.eq_of_toNat_eq
      rw [record.toNat_address, other.toNat_address, same.address]
    · intro slot member offset inside
      rcases Slot.eq_next_or_group member with rfl | ⟨field, start, placed, rfl⟩
      · exact next_eq_iff.mp same.next offset inside
      · have group := same.groups field (Field.kind_of_start? placed)
        exact (sameOnes_iff placed).mp group offset inside
  · rintro ⟨sameAddress, sameBits⟩
    refine ⟨?_, ?_, ?_⟩
    · rw [← record.toNat_address, ← other.toNat_address, sameAddress]
    · exact next_eq_iff.mpr fun offset _ => sameBits (1 + offset)
    · intro field group
      rcases Field.start?_of_kind group with ⟨start, placed⟩
      exact (sameOnes_iff placed).mpr fun offset _ => sameBits (start + offset)

end Record

namespace Word

variable {record other : Record}

/-- Parity bits depend on nothing but the data. -/
theorem packRegular_congr (sameAddress : record.address = other.address)
    (sameBits : ∀ position, record.bitAt position = other.bitAt position) :
    packRegular record = packRegular other := by
  have fields : fieldBits record = fieldBits other := by
    apply Vector.ext
    intro position inside
    rw [getElem_fieldBits, getElem_fieldBits, sameBits]
  have addresses : record.bits .addr = other.bits .addr := by
    rw [Record.bits, Record.bits, sameAddress]
  rw [packRegular, packRegular, fields, addresses, sameAddress]

/-- The same is true of inversions. -/
theorem pack_congr (sameAddress : record.address = other.address)
    (sameBits : ∀ position, record.bitAt position = other.bitAt position) :
    pack record = pack other := by
  rw [pack, pack, packRegular_congr sameAddress sameBits, sameAddress]

theorem pack_eq_iff : pack record = pack other ↔ record.SameData other := by
  rw [Record.sameData_iff]
  constructor
  · intro same
    have sameAddress : record.address = other.address := congrArg Word.address same
    refine ⟨sameAddress, Record.bitAt_congr ?_⟩
    intro slot member offset inside
    -- Slots and parity bits are apart, so the word still shows the bit of the record.
    have apart := Slot.start_add_ne_position member inside
    rw [← bit_eq_bitAt List.mem_cons_self apart, same, bit_eq_bitAt List.mem_cons_self apart]
  · rintro ⟨sameAddress, sameBits⟩
    exact pack_congr sameAddress sameBits

/-- The end mark is clear in every packed word, so the meaningful bits tell words of one
address apart. -/
theorem packed_eq_iff {left right : Word} (first : left ∈ [pack record, packRegular record])
    (second : right ∈ [pack other, packRegular other]) :
    left = right ↔
      left.address = right.address ∧ left.meaningfulText = right.meaningfulText := by
  constructor
  · rintro rfl
    exact ⟨rfl, rfl⟩
  · rintro ⟨sameAddress, sameText⟩
    apply ext_bit sameAddress
    intro position _
    by_cases inside : position < meaningfulBits
    · exact bit_eq_of_meaningfulText sameText inside
    · have beyond := Nat.le_of_not_lt inside
      rw [bit_of_le first beyond, bit_of_le second beyond]

/-! ## All words -/

/-- Any contents of a word can be written as a line. -/
theorem pack_written (address : BitVec addressBits) (next : BitVec 6)
    (ones : Field → Nat → Bool) :
    (pack (Layout.written address next ones)).address = address ∧
    (∀ offset < 6, (pack (Layout.written address next ones)).cell? (1 + offset) =
      some (next.getMsbD offset)) ∧
    (∀ (field : Field) (start : Nat), field.start? = some start → ∀ offset < field.width,
      (pack (Layout.written address next ones)).cell? (start + offset) =
        some (ones field offset)) := by
  let record := Layout.written address next ones
  have packed : pack record ∈ [pack record, packRegular record] := List.mem_cons_self
  have texts : ∀ field, record.text field = Layout.contents address next ones field :=
    Layout.text_written address next ones
  refine ⟨?_, ?_, ?_⟩
  · apply BitVec.eq_of_toNat_eq
    rw [address_of_packed packed, Record.toNat_address, texts]
    exact Layout.number_address address .upper
  · intro offset inside
    have number : Hex.number (record.text .cn) / 4 = next.toNat := by
      rw [texts, Layout.number_next, Nat.mul_div_cancel _ (by decide)]
    have here := cell?_slot packed .next List.mem_cons_self inside
    refine here.trans (congrArg some ?_)
    rw [BitVec.getMsbD, decide_eq_true inside, Bool.true_and, BitVec.getLsbD, ← number]
    exact record.bitAt_next inside
  · intro field start placed offset inside
    have here := cell?_slot packed _ (Field.mem_slots_of_start? placed) inside
    refine here.trans (congrArg some ?_)
    have digit : (record.text field)[offset]? = some (Binary.digit (ones field offset)) := by
      rw [texts, Layout.contents_of_kind _ _ _ (Field.kind_of_start? placed)]
      simp [Binary.digits, inside]
    rw [record.bitAt_group placed inside, ← record.getElem?_text inside, digit]
    cases ones field offset <;> rfl

/-- A packed word identifies the data of its record.  Whether two words are equal can be
seen from their addresses and meaningful bits, and every choice of an address, of the six
high bits of a next address and of all bits in groups belongs to some line. -/
theorem pack_identifies :
    (∀ record other : Record, pack record = pack other ↔ record.SameData other) ∧
    (∀ record other : Record, ∀ left ∈ [pack record, packRegular record],
      ∀ right ∈ [pack other, packRegular other],
        (left = right ↔
          left.address = right.address ∧ left.meaningfulText = right.meaningfulText)) ∧
    (∀ (address : BitVec addressBits) (next : BitVec 6) (ones : Field → Nat → Bool),
      ∃ line record, Line.classify .standard .strict line = .ok (.record record) ∧
        (pack record).address = address ∧
        (∀ offset < 6, (pack record).cell? (1 + offset) = some (next.getMsbD offset)) ∧
        (∀ (field : Field) (start : Nat), field.start? = some start →
          ∀ offset < field.width,
            (pack record).cell? (start + offset) = some (ones field offset))) := by
  refine ⟨fun _ _ => pack_eq_iff, fun _ _ _ first _ second => packed_eq_iff first second, ?_⟩
  intro address next ones
  exact ⟨(Layout.written address next ones).octets, Layout.written address next ones,
    Layout.classify_written address next ones, pack_written address next ones⟩

/-- Two lines with the same data, one of them with open digits and bits. -/
def looseRecord : Record where
  octets := Utf8.encode " B6?  ?F 0001 0001 110 01 ???? ?? 0010 0110 000 00 00 000 0000 ? 0 0 1 "
  blanks := by decide

def fixedRecord : Record where
  octets := Utf8.encode " 0b6  03 0001 0001 110 01 0000 00 0010 0110 000 00 00 000 0000 0 0 0 1 A20"
  blanks := by decide

theorem sameData_loose_fixed : looseRecord.SameData fixedRecord where
  address := by decide
  next := by decide
  groups := by
    intro field _
    cases field <;> unfold Field.SameOnes <;> decide

theorem pack_identifies_loose_fixed :
    pack looseRecord = pack fixedRecord ∧
    (pack looseRecord).meaningfulText = (pack fixedRecord).meaningfulText ∧
    ∃ line record, Line.classify .standard .strict line = .ok (.record record) ∧
      (pack record).address = 0xB60 ∧ (pack record).cell? 1 = some true ∧
      (pack record).cell? 54 = some true := by
  rcases pack_identifies with ⟨identified, distinguished, all⟩
  have same := (identified looseRecord fixedRecord).mpr sameData_loose_fixed
  have seen := (distinguished looseRecord fixedRecord (pack looseRecord) List.mem_cons_self
    (pack fixedRecord) List.mem_cons_self).mp same
  rcases all 0xB60 0b100000 (fun _ _ => true) with ⟨line, record, found, address, next, groups⟩
  exact ⟨same, seen.2, line, record, found, address, next 0 (by decide),
    groups .ak 54 rfl 0 (by decide)⟩

end Word

end Microcode
