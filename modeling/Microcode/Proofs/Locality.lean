import Microcode.Proofs.Corruption
import Mathlib.Order.Interval.Finset.Nat

namespace Microcode

/-!
Changes in a single field.

Words of one address pass the same checks, so in every group they differ in an even number of
positions.  A change in the text of one field reaches the field's own positions only, and all of
them lie in one group.  In another group nothing could differ but the parity bit, which cannot be
alone; in the group of the field the parity bit makes the number even.  A change of the address
takes the same course, with PA in place of a field: it lies in the group of PS.
-/

namespace Field

/-- The parity bit that a field is covered by. -/
def parityBit : Field → ParityBit
  | addr => .pa
  | cn => .pn
  | ch => .ps
  | cl => .ps
  | cm => .ps
  | cu => .ps
  | ca => .ps
  | cb => .ps
  | ck => .ps
  | pk => .ps
  | aa => .ps
  | ak => .ps
  | cd => .pc
  | cf => .pc
  | cg => .pc
  | cv => .pc
  | cc => .pc
  | cs => .pc
  | as => .pc

/-- The offsets at which just one of two records has a one in a field. -/
def changes (field : Field) (record other : Record) : Finset Nat :=
  (Finset.range field.width).filter fun offset =>
    ¬ ((record.text field)[offset]? = some Octet.one ↔
      (other.text field)[offset]? = some Octet.one)

end Field

namespace Group

/-- Where the parity bit of a group stands. -/
def parityPosition (group : Group) : Nat :=
  group.coverage.bit.position

theorem parityPosition_mem (group : Group) : group.parityPosition ∈ group.members := by
  cases group <;> decide

theorem eq_of_mem_members {group other : Group} {position : Nat}
    (first : position ∈ group.members) (second : position ∈ other.members) : group = other := by
  by_contra different
  exact Finset.disjoint_left.mp (disjoint_members different) first second

end Group

namespace Slot

def positions (slot : Slot) : Finset Nat :=
  Finset.Ico slot.start (slot.start + slot.length)

theorem mem_positions {slot : Slot} {position : Nat} :
    position ∈ slot.positions ↔ slot.covers position := by
  rw [positions, Finset.mem_Ico, covers, Bool.and_eq_true, decide_eq_true_eq, decide_eq_true_eq]

/-- No field has two slots. -/
theorem eq_of_field {slot other : Slot} (first : slot ∈ all) (second : other ∈ all)
    (same : slot.field = other.field) : slot = other := by
  have distinct : ∀ slot ∈ all, ∀ other ∈ all, slot.field = other.field → slot = other := by
    decide
  exact distinct slot first other second same

/-- The address of a word is not among its bits. -/
theorem field_ne_addr {slot : Slot} (member : slot ∈ all) : slot.field ≠ .addr := by
  have elsewhere : ∀ slot ∈ all, slot.field ≠ .addr := by decide
  exact elsewhere slot member

/-- A slot lies in one group, and does not hold its parity bit. -/
theorem within_group {slot : Slot} (member : slot ∈ all) :
    ∃ group : Group, group.coverage.bit = slot.field.parityBit ∧
      slot.positions ⊆ group.members ∧ group.parityPosition ∉ slot.positions := by
  have placed : ∀ slot ∈ all, ∃ group ∈ Group.all, group.coverage.bit = slot.field.parityBit ∧
      ∀ position ∈ List.range' slot.start slot.length,
        position ∈ group.positions ∧ group.parityPosition ≠ position := by
    decide
  have listed (position : Nat) :
      position ∈ slot.positions → position ∈ List.range' slot.start slot.length := by
    rw [positions, Finset.mem_Ico, List.mem_range'_1]
    exact id
  rcases placed slot member with ⟨group, -, covered, inside⟩
  refine ⟨group, covered, ?_, ?_⟩
  · intro position here
    exact List.mem_toFinset.mpr (inside position (listed position here)).1
  · intro here
    exact (inside _ (listed _ here)).2 rfl

end Slot

/-! ## Records that differ in a field -/

namespace Record

/-- Two records that agree on the text of every field but one.  What stands behind the fields may
differ as well. -/
def SameBut (field : Field) (record other : Record) : Prop :=
  ∀ another, another ≠ field → record.text another = other.text another

instance (field : Field) (record other : Record) : Decidable (SameBut field record other) :=
  decidable_of_iff
    (∀ another ∈ Field.all, another ≠ field → record.text another = other.text another)
    (forall_congr' fun another => forall_prop_of_true another.mem_all)

variable {record other : Record} {field : Field}

theorem SameBut.address_eq (same : SameBut field record other) (elsewhere : field ≠ .addr) :
    record.address = other.address :=
  address_congr (same .addr elsewhere.symm)

/-- What a field holds is seen nowhere but in its own slot. -/
theorem bitAt_eq_of_sameBut (same : SameBut field record other) {position : Nat}
    (outside : ∀ slot ∈ Slot.all, slot.field = field → position ∉ slot.positions) :
    record.bitAt position = other.bitAt position := by
  cases found : Slot.at? position with
  | none => rw [bitAt, bitAt, found]
  | some slot =>
      have member : slot ∈ Slot.all := List.mem_of_find?_eq_some found
      have covered := List.find?_some found
      have elsewhere : slot.field ≠ field := fun here =>
        outside slot member here (Slot.mem_positions.mpr covered)
      rw [bitAt, bitAt, found]
      dsimp only
      rw [bits_congr (same slot.field elsewhere)]

end Record

namespace Word

variable {left right : Word}

theorem mem_differing {position : Nat} :
    position ∈ differing left right ↔ left.bit position ≠ right.bit position := by
  rw [differing, Finset.mem_filter, Finset.mem_range, and_iff_right_iff_imp]
  intro different
  by_contra beyond
  apply different
  rw [bit, bit, read, read, Vector.getElem?_eq_none (Nat.le_of_not_lt beyond),
    Vector.getElem?_eq_none (Nat.le_of_not_lt beyond)]

/-! ## Differences within a group -/

/-- Two words that pass the same checks and agree outside some positions, as far as the parity
bits of the groups are left aside. -/
structure AgreeBut (positions : Finset Nat) (left right : Word) : Prop where
  checks : ∀ group, left.check group = right.check group
  bits : ∀ position ∉ positions, (∀ group : Group, group.parityPosition ≠ position) →
    left.bit position = right.bit position

namespace AgreeBut

variable {positions : Finset Nat} {group : Group}

theorem exists_parityPosition (frame : AgreeBut positions left right) {position : Nat}
    (differs : position ∈ differing left right) (outside : position ∉ positions) :
    ∃ group : Group, group.parityPosition = position := by
  by_contra none
  exact mem_differing.mp differs (frame.bits position outside (not_exists.mp none))

/-- In every other group only the parity bit could differ, but a single difference is odd. -/
theorem differing_subset (frame : AgreeBut positions left right)
    (within : positions ⊆ group.members) :
    differing left right ⊆ insert group.parityPosition positions := by
  intro position differs
  by_contra outside
  rw [Finset.mem_insert, not_or] at outside
  rcases frame.exists_parityPosition differs outside.2 with ⟨another, rfl⟩
  have foreign : another ≠ group := fun same => outside.1 (congrArg Group.parityPosition same)
  have alone : differing left right ∩ another.members = {another.parityPosition} := by
    apply Finset.eq_singleton_iff_unique_mem.mpr
    refine ⟨Finset.mem_inter.mpr ⟨differs, another.parityPosition_mem⟩, ?_⟩
    intro position both
    rcases Finset.mem_inter.mp both with ⟨differs, member⟩
    have elsewhere : position ∉ positions := fun inside =>
      foreign (Group.eq_of_mem_members member (within inside))
    rcases frame.exists_parityPosition differs elsewhere with ⟨third, rfl⟩
    rw [Group.eq_of_mem_members third.parityPosition_mem member]
  have even := even_differing_group (frame.checks another)
  rw [alone, Finset.card_singleton] at even
  exact Nat.not_even_one even

/-- The parity bit of the group differs just when it is needed for an even number. -/
theorem parityPosition_mem_differing_iff (frame : AgreeBut positions left right)
    (within : positions ⊆ group.members) (apart : group.parityPosition ∉ positions) :
    group.parityPosition ∈ differing left right ↔
      Odd (differing left right ∩ positions).card := by
  have subset := frame.differing_subset within
  have inGroup : differing left right ⊆ group.members :=
    subset.trans (Finset.insert_subset group.parityPosition_mem within)
  have even := even_differing_group (frame.checks group)
  rw [Finset.inter_eq_left.mpr inGroup] at even
  have others : (differing left right).erase group.parityPosition =
      differing left right ∩ positions := by
    ext position
    rw [Finset.mem_erase, Finset.mem_inter]
    constructor
    · rintro ⟨different, differs⟩
      exact ⟨differs, Finset.mem_of_mem_insert_of_ne (subset differs) different⟩
    · rintro ⟨differs, inside⟩
      exact ⟨fun same => apart (same ▸ inside), differs⟩
  rw [← others]
  constructor
  · intro differs
    rw [← Finset.card_erase_add_one differs] at even
    exact Nat.not_even_iff_odd.mp (Nat.even_add_one.mp even)
  · intro odd
    by_contra agrees
    rw [Finset.erase_eq_of_notMem agrees] at odd
    exact Nat.not_even_iff_odd.mpr odd even

end AgreeBut

/-! ## Packed words -/

variable {record other : Record}

/-- Besides the parity bits of the groups there is only PA. -/
theorem position_ne_of_apart {position : Nat} (pa : position ≠ 8)
    (apart : ∀ group : Group, group.parityPosition ≠ position) (bit : ParityBit) :
    bit.position.val ≠ position := by
  cases bit
  case pn => exact apart .pn
  case ps => exact apart .ps
  case pa => exact Ne.symm pa
  case pc => exact apart .pc

-- Both words of a record get their bits in the same way, and an inversion depends on the address
-- alone.
section Builds

variable {build : Record → Word} (listed : build ∈ [pack, packRegular])

include listed

theorem mem_packed (record : Record) : build record ∈ [pack record, packRegular record] := by
  rcases List.mem_pair.mp listed with rfl | rfl
  · exact List.mem_cons_self
  · exact List.mem_cons_of_mem _ List.mem_cons_self

theorem address_build (record : Record) : (build record).address = record.address :=
  address_of_packed (mem_packed listed record)

theorem check_congr (same : record.address = other.address) (group : Group) :
    (build record).check group = (build other).check group := by
  rcases List.mem_pair.mp listed with rfl | rfl
  · exact check_pack_eq same group
  · rw [check_packRegular, check_packRegular]

theorem checkAddress_congr (same : record.address = other.address) :
    (build record).checkAddress = (build other).checkAddress := by
  rcases List.mem_pair.mp listed with rfl | rfl
  · rw [checkAddress_pack, checkAddress_pack, same]
  · rw [checkAddress_packRegular, checkAddress_packRegular]

/-- PA is determined by the address. -/
theorem bit_pa_congr (same : record.address = other.address) :
    (build record).bit 8 = (build other).bit 8 := by
  have checks := checkAddress_congr listed same
  rw [checkAddress, checkAddress, address_build listed, address_build listed, same] at checks
  exact Bool.xor_left_inj.mp checks

/-- Outside the parity bits a change in a field is seen only in its own slot. -/
theorem bit_congr_of_sameBut {field : Field} (same : Record.SameBut field record other)
    {position : Nat} (pa : position ≠ 8)
    (apart : ∀ group : Group, group.parityPosition ≠ position)
    (outside : ∀ slot ∈ Slot.all, slot.field = field → position ∉ slot.positions) :
    (build record).bit position = (build other).bit position := by
  have free := position_ne_of_apart pa apart
  rw [bit_eq_bitAt (mem_packed listed record) free, bit_eq_bitAt (mem_packed listed other) free,
    Record.bitAt_eq_of_sameBut same outside]

/-- A change in a field with a slot leaves the rest of the word alone. -/
theorem agreeBut_slot {slot : Slot} (member : slot ∈ Slot.all)
    (same : Record.SameBut slot.field record other) :
    AgreeBut slot.positions (build record) (build other) where
  checks := check_congr listed (same.address_eq (Slot.field_ne_addr member))
  bits := by
    intro position outside apart
    by_cases pa : position = 8
    · subst pa
      exact bit_pa_congr listed (same.address_eq (Slot.field_ne_addr member))
    · apply bit_congr_of_sameBut listed same pa apart
      intro another found here
      rwa [Slot.eq_of_field found member here]

/-- What a change in a field with a slot comes to. -/
theorem differing_slot {slot : Slot} (member : slot ∈ Slot.all)
    (same : Record.SameBut slot.field record other) :
    (build record).address = (build other).address ∧
      differing (build record) (build other) ⊆
        insert slot.field.parityBit.position.val slot.positions ∧
      (slot.field.parityBit.position.val ∈ differing (build record) (build other) ↔
        Odd (differing (build record) (build other) ∩ slot.positions).card) := by
  have frame := agreeBut_slot listed member same
  rcases Slot.within_group member with ⟨group, covered, within, apart⟩
  rw [← covered]
  refine ⟨?_, frame.differing_subset within, frame.parityPosition_mem_differing_iff within apart⟩
  rw [address_build listed, address_build listed]
  exact same.address_eq (Slot.field_ne_addr member)

end Builds

/-- A change of the address reaches no bit but PA and, through it, PS. -/
theorem agreeBut_pa (same : Record.SameBut .addr record other) :
    AgreeBut {8} (packRegular record) (packRegular other) where
  checks group := by rw [check_packRegular, check_packRegular]
  bits := by
    intro position outside apart
    have pa : position ≠ 8 := fun here => outside (Finset.mem_singleton.mpr here)
    apply bit_congr_of_sameBut (List.mem_cons_of_mem _ List.mem_cons_self) same pa apart
    intro slot member here
    exact absurd here (Slot.field_ne_addr member)

/-- PA differs when the addresses differ in an odd number of bits. -/
theorem pa_mem_differing_iff :
    8 ∈ differing (packRegular record) (packRegular other) ↔
      Odd (addressOnes (record.address ^^^ other.address)) := by
  have pa (record : Record) :
      (packRegular record).bit 8 = !decide (Odd (addressOnes record.address)) :=
    Bool.eq_not.mpr (Bool.xor_iff_ne.mp (checkAddress_packRegular record))
  have places : (record.address ^^^ other.address).getLsbD = fun place =>
      record.address.getLsbD place ^^ other.address.getLsbD place :=
    funext fun _ => BitVec.getLsbD_xor
  rw [mem_differing, pa, pa, addressOnes, addressOnes, addressOnes, places, odd_countP_xor, ne_eq,
    Bool.not_inj_iff, decide_eq_decide]

/-! ## Fields -/

section Groups

variable {field : Field} {start : Nat} (placed : field.start? = some start)
  {build : Record → Word} (listed : build ∈ [pack, packRegular])

include placed listed

theorem mem_differing_group {offset : Nat} (inside : offset < field.width) :
    start + offset ∈ differing (build record) (build other) ↔
      offset ∈ field.changes record other := by
  have free := Slot.start_add_ne_position (Field.mem_slots_of_start? placed) inside
  rw [mem_differing, bit_eq_bitAt (mem_packed listed record) free,
    bit_eq_bitAt (mem_packed listed other) free, record.bitAt_group placed inside,
    other.bitAt_group placed inside, ← record.getElem?_text inside, ← other.getElem?_text inside,
    Field.changes, Finset.mem_filter, Finset.mem_range, ne_eq, decide_eq_decide]
  exact (and_iff_right inside).symm

theorem card_differing_group :
    (differing (build record) (build other) ∩ Finset.Ico start (start + field.width)).card =
      (field.changes record other).card := by
  symm
  apply Finset.card_bij fun offset _ => start + offset
  · intro offset changed
    have inside := Finset.mem_range.mp (Finset.mem_filter.mp changed).1
    rw [Finset.mem_inter, Finset.mem_Ico]
    exact ⟨(mem_differing_group placed listed inside).mpr changed, by omega⟩
  · intro first _ second _ same
    exact Nat.add_left_cancel same
  · intro position both
    rw [Finset.mem_inter, Finset.mem_Ico] at both
    have inside : position - start < field.width := by omega
    have moved : start + (position - start) = position := by omega
    refine ⟨position - start, (mem_differing_group placed listed inside).mp ?_, moved⟩
    rw [moved]
    exact both.1

end Groups

/-- A change in one field stays within the field's own bits and the parity bit that covers them,
which changes along with an odd number of ones.  Of the next address only some digits are kept,
so there the bits themselves are counted.  The address has no bits in the word besides PA, and
PS covers PA: either both change or none. -/
theorem change_of_one_field {record other : Record} {field : Field}
    (same : Record.SameBut field record other) :
    (∀ start, field.start? = some start → ∀ build ∈ [pack, packRegular],
      (build record).address = (build other).address ∧
      differing (build record) (build other) ⊆
        insert field.parityBit.position.val (Finset.Ico start (start + field.width)) ∧
      (∀ offset < field.width, (start + offset ∈ differing (build record) (build other) ↔
        offset ∈ field.changes record other)) ∧
      (field.parityBit.position.val ∈ differing (build record) (build other) ↔
        Odd (field.changes record other).card)) ∧
    (field = .cn → ∀ build ∈ [pack, packRegular],
      (build record).address = (build other).address ∧
      differing (build record) (build other) ⊆ Finset.range 7 ∧
      (0 ∈ differing (build record) (build other) ↔
        Odd (differing (build record) (build other) ∩ Finset.Icc 1 6).card)) ∧
    (field = .addr →
      differing (packRegular record) (packRegular other) ⊆ {7, 8} ∧
      (8 ∈ differing (packRegular record) (packRegular other) ↔
        Odd (addressOnes (record.address ^^^ other.address))) ∧
      (7 ∈ differing (packRegular record) (packRegular other) ↔
        8 ∈ differing (packRegular record) (packRegular other))) := by
  refine ⟨?_, ?_, ?_⟩
  · intro start placed build listed
    have member := Field.mem_slots_of_start? placed
    rcases differing_slot listed member same with ⟨address, within, parity⟩
    rw [Slot.positions, card_differing_group placed listed] at parity
    exact ⟨address, within, fun _ inside => mem_differing_group placed listed inside, parity⟩
  · rintro rfl build listed
    have within : insert 0 Slot.next.positions = Finset.range 7 := by decide
    have next : Slot.next.positions = Finset.Icc 1 6 := by decide
    rw [← within, ← next]
    exact differing_slot listed List.mem_cons_self same
  · rintro rfl
    have frame := agreeBut_pa same
    have within : {8} ⊆ Group.ps.members := by decide
    have apart : Group.ps.parityPosition ∉ ({8} : Finset Nat) := by decide
    refine ⟨frame.differing_subset within, pa_mem_differing_iff, ?_⟩
    refine (frame.parityPosition_mem_differing_iff within apart).trans ?_
    by_cases pa : 8 ∈ differing (packRegular record) (packRegular other)
    · simp [pa]
    · simp [pa]

/-- A neighbour of `upperRecord` with another group CA, in which just one octet becomes a one. -/
def otherGroup : Record where
  octets := Utf8.encode " B60  3F 1010 0110 101 11 ?101 10 1100 1001 011 10 01 110 0101 1 1 1 0 "
  blanks := by decide

/-- A neighbour of `upperRecord` with another next address. -/
def otherNext : Record where
  octets := Utf8.encode " B60  7F 1010 0110 101 11 0?01 10 1100 1001 011 10 01 110 0101 1 1 1 0 "
  blanks := by decide

/-- A neighbour of `upperRecord` with another address. -/
def otherAddress : Record where
  octets := Utf8.encode " B70  3F 1010 0110 101 11 0?01 10 1100 1001 011 10 01 110 0101 1 1 1 0 "
  blanks := by decide

theorem change_of_one_field_at_neighbours :
    (Record.SameBut .ca upperRecord otherGroup ∧
      differing (pack upperRecord) (pack otherGroup) ⊆ {7, 22, 23, 24, 25} ∧
      7 ∈ differing (pack upperRecord) (pack otherGroup)) ∧
    (Record.SameBut .cn upperRecord otherNext ∧
      differing (pack upperRecord) (pack otherNext) ⊆ Finset.range 7 ∧
      0 ∈ differing (pack upperRecord) (pack otherNext)) ∧
    (Record.SameBut .addr upperRecord otherAddress ∧
      8 ∈ differing (packRegular upperRecord) (packRegular otherAddress) ∧
      7 ∈ differing (packRegular upperRecord) (packRegular otherAddress)) := by
  have group : Record.SameBut .ca upperRecord otherGroup := by decide +kernel
  have next : Record.SameBut .cn upperRecord otherNext := by decide +kernel
  have address : Record.SameBut .addr upperRecord otherAddress := by decide +kernel
  rcases (change_of_one_field group).1 22 rfl pack List.mem_cons_self with ⟨-, within, -, ps⟩
  rcases (change_of_one_field next).2.1 rfl pack List.mem_cons_self with ⟨-, first, pn⟩
  rcases (change_of_one_field address).2.2 rfl with ⟨-, pa, both⟩
  have odd : Odd (addressOnes (upperRecord.address ^^^ otherAddress.address)) := by decide
  exact ⟨⟨group, within, ps.mpr (by decide)⟩, ⟨next, first, pn.mpr (by decide +kernel)⟩,
    ⟨address, pa.mpr odd, both.mpr (pa.mpr odd)⟩⟩

end Word

end Microcode
