import Microcode.Proofs.Checks
import Microcode.Proofs.Placement
import Mathlib.Data.Finset.Card

namespace Microcode

/-!
Corruption of control words.

The errata of a word depend on its address only, so two words of one address pass the
same checks, and in every group they differ in an even number of positions.  The groups
divide up all meaningful positions.  Inverting an odd number of bits therefore never
leads to another word of the same address.
-/

namespace Group

/-- The positions of a group, as a set. -/
def members (group : Group) : Finset Nat :=
  group.positions.toFinset

theorem disjoint_members {group other : Group} (different : group ≠ other) :
    Disjoint group.members other.members := by
  have apart : ∀ group ∈ all, ∀ other ∈ all, group ≠ other →
      Disjoint group.members other.members := by
    decide
  exact apart group group.mem_all other other.mem_all different

theorem union_members :
    pn.members ∪ ps.members ∪ pc.members = Finset.range meaningfulBits := by
  ext position
  simp only [members, positions, Finset.mem_union, List.mem_toFinset, List.mem_append,
    List.mem_range'_1, List.mem_cons, List.not_mem_nil, or_false, Finset.mem_range]
  change _ ↔ position < 55
  omega

end Group

namespace Word

/-- The positions at which two words differ. -/
def differing (left right : Word) : Finset Nat :=
  (Finset.range wordBits).filter fun position => left.bit position ≠ right.bit position

/-- A word with the bits at some positions inverted. -/
def invertAt (word : Word) (positions : Finset Nat) : Word where
  address := word.address
  bits := Vector.ofFn fun position => word.bit position ^^ decide (position.val ∈ positions)

theorem bit_invertAt (word : Word) (positions : Finset Nat) {position : Nat}
    (inside : position < wordBits) :
    (word.invertAt positions).bit position =
      (word.bit position ^^ decide (position ∈ positions)) := by
  simp [bit, read, invertAt, inside]

/-! ## Differences of words that pass the same checks -/

section Differences

variable {left right : Word}

theorem even_differing_group {group : Group} (same : left.check group = right.check group) :
    Even (differing left right ∩ group.members).card := by
  let differs : Nat → Bool := fun position => left.bit position ^^ right.bit position
  have distinct : group.positions.Nodup := by cases group <;> decide
  have inside : ∀ position ∈ group.positions, position < wordBits := by cases group <;> decide
  have listed : differing left right ∩ group.members =
      (group.positions.filter differs).toFinset := by
    ext position
    simp only [differing, Group.members, differs, Finset.mem_inter, Finset.mem_filter,
      Finset.mem_range, List.mem_toFinset, List.mem_filter, bne_iff_ne]
    constructor
    · rintro ⟨⟨-, different⟩, member⟩
      exact ⟨member, different⟩
    · rintro ⟨member, different⟩
      exact ⟨⟨inside position member, different⟩, member⟩
  have even : parity false (group.positions.map differs) = false := by
    rw [parity_map_xor, ← check_eq_parity, ← check_eq_parity, same, Bool.xor_self]
  rw [parity_false_eq_odd, List.countP_map] at even
  rw [listed, List.toFinset_card_of_nodup (distinct.filter differs),
    ← List.countP_eq_length_filter]
  exact Nat.not_odd_iff_even.mp (of_decide_eq_false even)

/-- The groups divide up the differences, provided that these are meaningful. -/
theorem even_differing (same : ∀ group, left.check group = right.check group)
    (ends : ∀ position, meaningfulBits ≤ position → left.bit position = right.bit position) :
    Even (differing left right).card := by
  have within : differing left right ⊆ Finset.range meaningfulBits := by
    intro position member
    have different := (Finset.mem_filter.mp member).2
    exact Finset.mem_range.mpr (Nat.lt_of_not_le fun beyond => different (ends position beyond))
  have divided : differing left right =
      differing left right ∩ Group.pn.members ∪ differing left right ∩ Group.ps.members ∪
        differing left right ∩ Group.pc.members := by
    rw [← Finset.inter_union_distrib_left, ← Finset.inter_union_distrib_left,
      Group.union_members, Finset.inter_eq_left.mpr within]
  have apart {group other : Group} (different : group ≠ other) :
      Disjoint (differing left right ∩ group.members) (differing left right ∩ other.members) :=
    (Group.disjoint_members different).mono Finset.inter_subset_right Finset.inter_subset_right
  rw [divided, Finset.card_union_of_disjoint, Finset.card_union_of_disjoint]
  · exact ((even_differing_group (same .pn)).add (even_differing_group (same .ps))).add
      (even_differing_group (same .pc))
  · exact apart (by decide)
  · exact Finset.disjoint_union_left.mpr ⟨apart (by decide), apart (by decide)⟩

/-- Two different words of one address never differ in a single position. -/
theorem one_lt_card_differing (sameAddress : left.address = right.address)
    (even : Even (differing left right).card) (different : left ≠ right) :
    1 < (differing left right).card := by
  have some : (differing left right).card ≠ 0 := by
    intro none
    apply different
    apply ext_bit sameAddress
    intro position inside
    by_contra unequal
    have member : position ∈ differing left right :=
      Finset.mem_filter.mpr ⟨Finset.mem_range.mpr inside, unequal⟩
    rw [Finset.card_eq_zero.mp none] at member
    exact Finset.notMem_empty position member
  rcases even with ⟨half, sum⟩
  omega

/-- What is inverted is exactly what differs. -/
theorem differing_eq_of_invertAt {flipped : Finset Nat}
    (within : flipped ⊆ Finset.range meaningfulBits)
    (ends : ∀ position, meaningfulBits ≤ position → left.bit position = right.bit position)
    (same : (left.invertAt flipped).meaningfulText = right.meaningfulText) :
    differing left right = flipped := by
  ext position
  rw [differing, Finset.mem_filter, Finset.mem_range]
  by_cases inside : position < meaningfulBits
  · have meaningful : position < wordBits := Nat.lt_trans inside (by decide)
    have here := bit_eq_of_meaningfulText same inside
    rw [bit_invertAt left flipped meaningful] at here
    rw [← here]
    by_cases member : position ∈ flipped <;> simp [member, meaningful]
  · have equal := ends position (Nat.le_of_not_lt inside)
    constructor
    · rintro ⟨-, different⟩
      exact absurd equal different
    · intro member
      exact absurd (Finset.mem_range.mp (within member)) inside

end Differences

/-! ## Differences of packed words -/

theorem check_pack_eq {record other : Record}
    (sameAddress : (pack record).address = (pack other).address) (group : Group) :
    (pack record).check group = (pack other).check group := by
  have same : record.address = other.address := sameAddress
  rw [check_pack, check_pack, same]

theorem bit_pack_of_le (record : Record) {position : Nat} (beyond : meaningfulBits ≤ position) :
    (pack record).bit position = false :=
  bit_of_le List.mem_cons_self beyond

/-- Corruption of an odd number of bits is always detected.  In the last part the words
may even have different addresses, as no erratum is involved. -/
theorem odd_corruption_detected :
    (∀ record other : Record, (pack record).address = (pack other).address →
      (∀ flipped ⊆ Finset.range 55, Odd flipped.card →
        ((pack record).invertAt flipped).meaningfulText ≠ (pack other).meaningfulText ∧
        ((pack record).invertAt flipped).fullText ≠ (pack other).fullText) ∧
      (∀ group : Group, Even (differing (pack record) (pack other) ∩ group.members).card) ∧
      (pack record ≠ pack other → 1 < (differing (pack record) (pack other)).card)) ∧
    (∀ group other : Group, group ≠ other → Disjoint group.members other.members) ∧
    Group.pn.members ∪ Group.ps.members ∪ Group.pc.members = Finset.range 55 ∧
    (∀ (record other : Record) (group : Group),
      Even (differing (packRegular record) (packRegular other) ∩ group.members).card) := by
  refine ⟨?_, fun _ _ => Group.disjoint_members, Group.union_members, ?_⟩
  · intro record other sameAddress
    have checks := check_pack_eq sameAddress
    have ends : ∀ position, meaningfulBits ≤ position →
        (pack record).bit position = (pack other).bit position := by
      intro position beyond
      rw [bit_pack_of_le record beyond, bit_pack_of_le other beyond]
    have even := even_differing checks ends
    refine ⟨?_, fun group => even_differing_group (checks group),
      one_lt_card_differing sameAddress even⟩
    intro flipped within odd
    have detected : ((pack record).invertAt flipped).meaningfulText ≠
        (pack other).meaningfulText := by
      intro same
      rw [differing_eq_of_invertAt within ends same] at even
      exact Nat.not_even_iff_odd.mpr odd even
    refine ⟨detected, fun same => detected ?_⟩
    rw [meaningfulText_eq_take, meaningfulText_eq_take, same]
  · intro record other group
    apply even_differing_group
    rw [check_packRegular, check_packRegular]

/-- A record at an address with an erratum, and another one at the same address. -/
def upperRecord : Record where
  octets := Utf8.encode " B60  3F 1010 0110 101 11 0?01 10 1100 1001 011 10 01 110 0101 1 1 1 0 "
  blanks := by decide

def lowerRecord : Record where
  octets := Utf8.encode " b60  ?F 0001 0001 110 01 ???? ?? 0010 0110 000 00 00 000 0000 ? 0 0 1 "
  blanks := by decide

theorem odd_corruption_detected_at_erratum :
    ((pack upperRecord).address = (pack lowerRecord).address ∧
      pack upperRecord ≠ pack lowerRecord ∧
      1 < (differing (pack upperRecord) (pack lowerRecord)).card) ∧
    (({0, 33, 54} : Finset Nat) ⊆ Finset.range 55 ∧ Odd ({0, 33, 54} : Finset Nat).card ∧
      ((pack upperRecord).invertAt {0, 33, 54}).fullText ≠ (pack lowerRecord).fullText) ∧
    Group.pn ≠ Group.ps ∧ Disjoint Group.pn.members Group.ps.members := by
  have same : (pack upperRecord).address = (pack lowerRecord).address := by decide
  have different : pack upperRecord ≠ pack lowerRecord := by decide
  have within : ({0, 33, 54} : Finset Nat) ⊆ Finset.range 55 := by decide
  have odd : Odd ({0, 33, 54} : Finset Nat).card := by decide
  have apart : Group.pn ≠ Group.ps := by decide
  rcases odd_corruption_detected with ⟨laws, disjoint, -⟩
  rcases laws upperRecord lowerRecord same with ⟨detected, -, several⟩
  exact ⟨⟨same, different, several different⟩, ⟨within, odd, (detected _ within odd).2⟩,
    apart, disjoint .pn .ps apart⟩

end Word

end Microcode
