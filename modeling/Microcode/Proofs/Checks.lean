import Microcode.Proofs.Bits
import Microcode.Proofs.Parity

namespace Microcode

/-!
The checks of a control word.

A word is checked in three groups of positions, each of which holds one parity bit
and what it covers, and once against its own address.  A group passes when an odd
number of its bits are set.  PA lies in the second group, so an erratum that inverts
PA breaks two checks unless it inverts PS as well.
-/

/-- The groups of positions that are checked together, named for their parity bits. -/
inductive Group where
  | pn
  | ps
  | pc
  deriving DecidableEq, Repr

namespace Group

def all : List Group :=
  [pn, ps, pc]

theorem mem_all (group : Group) : group ∈ all := by
  cases group <;> decide

/-- The parity bit, then what follows it up to the next group; the second and third
group share the last three positions. -/
def positions : Group → List Nat
  | pn => List.range' 0 7
  | ps => List.range' 7 26 ++ [52, 54]
  | pc => List.range' 33 19 ++ [53]

def coverage : Group → Coverage
  | pn => .pn
  | ps => .ps
  | pc => .pc

end Group

/-- The positions that take part in a check: those of the parity bit and of what it
covers. -/
def Coverage.checked (coverage : Coverage) : List Nat :=
  coverage.bit.position.val :: coverage.positions

namespace Group

theorem coverage_mem_all (group : Group) : group.coverage ∈ Coverage.all :=
  List.mem_map_of_mem group.mem_all

/-- A group consists of what its parity bit covers and of the parity bit itself. -/
theorem checked_perm (group : Group) : group.coverage.checked.Perm group.positions := by
  cases group <;> decide

end Group

/-- The number of ones in an address. -/
def addressOnes (address : BitVec addressBits) : Nat :=
  (List.range addressBits).countP address.getLsbD

namespace Word

/-- The exclusive or of the bits of a group. -/
def check (word : Word) (group : Group) : Bool :=
  decide (Odd (group.positions.countP word.bit))

/-- The exclusive or of PA and the bits of the address. -/
def checkAddress (word : Word) : Bool :=
  word.bit 8 ^^ decide (Odd (addressOnes word.address))

theorem check_eq_parity (word : Word) (group : Group) :
    word.check group = parity false (group.positions.map word.bit) := by
  rw [check, parity_false_eq_odd, List.countP_map]
  rfl

/-! ## Words without inversions -/

/-- Storing a parity bit completes the check of its coverage. -/
theorem parity_checked_cover (bits : Vector Bool wordBits) (coverage : Coverage)
    (apart : coverage.bit.position.val ∉ coverage.positions) :
    parity false (coverage.checked.map (read (cover bits coverage))) = true := by
  have stored : read (cover bits coverage) coverage.bit.position.val =
      parity true (coverage.positions.map (read bits)) := by
    rw [read_cover, if_pos rfl]
    rfl
  have kept : coverage.positions.map (read (cover bits coverage)) =
      coverage.positions.map (read bits) := by
    apply List.map_congr_left
    intro position member
    rw [read_cover, if_neg]
    exact fun equal => apart (equal ▸ member)
  rw [Coverage.checked, List.map_cons, stored, kept]
  exact parity_false_cons_parity_true _

/-- After all coverages every one of them is in order, provided that none writes into
one that is already complete. -/
theorem parity_checked_foldl_cover (coverages : List Coverage)
    (apart : ∀ coverage ∈ coverages, coverage.bit.position.val ∉ coverage.positions)
    (ordered : coverages.Pairwise fun earlier later =>
      later.bit.position.val ∉ earlier.checked)
    (bits : Vector Bool wordBits) :
    ∀ coverage ∈ coverages,
      parity false (coverage.checked.map (read (coverages.foldl cover bits))) = true := by
  induction coverages generalizing bits with
  | nil => simp
  | cons first rest ih =>
      have parts := List.pairwise_cons.mp ordered
      intro coverage member
      rw [List.foldl_cons]
      rcases List.mem_cons.mp member with rfl | later
      · have kept : coverage.checked.map (read (rest.foldl cover (cover bits coverage))) =
            coverage.checked.map (read (cover bits coverage)) := by
          apply List.map_congr_left
          intro position inside
          apply read_foldl_cover
          intro other found equal
          exact parts.1 other found (equal ▸ inside)
        rw [kept]
        exact parity_checked_cover bits coverage (apart coverage member)
      · exact ih (fun other found => apart other (List.mem_cons_of_mem first found)) parts.2
          (cover bits first) coverage later

theorem check_packRegular (record : Record) (group : Group) :
    (packRegular record).check group = true := by
  have complete := parity_checked_foldl_cover Coverage.all (by decide) (by decide)
    ((fieldBits record).set ParityBit.pa.position (parity true (record.bits .addr)))
    group.coverage group.coverage_mem_all
  rw [check_eq_parity, ← parity_perm (group.checked_perm.map _)]
  exact complete

theorem countP_bits_address (address : BitVec addressBits) :
    (Binary.bits address addressBits).countP id = addressOnes address := by
  have reversed : ((List.range addressBits).map fun index => addressBits - 1 - index).Perm
      (List.range addressBits) := by
    decide
  rw [addressOnes, ← reversed.countP_eq, List.countP_map, Binary.bits, List.countP_map]
  rfl

theorem checkAddress_packRegular (record : Record) :
    (packRegular record).checkAddress = true := by
  have stored : (packRegular record).bit 8 = parity true (record.bits .addr) := by
    rw [bit, packRegular, read_foldl_cover Coverage.all _ (by decide), read_set]
    rfl
  have ones : (record.bits .addr).countP id = addressOnes (packRegular record).address :=
    countP_bits_address record.address
  rw [checkAddress, stored, parity_eq_odd, ones, Bool.xor_assoc, Bool.xor_self, Bool.xor_false]

/-! ## Words with inversions -/

/-- The addresses whose erratum inverts an odd number of bits of a group. -/
def brokenAt : Group → List Nat
  | .pn => [0xB60]
  | .ps => [0xBA0]
  | .pc => [0xBA0, 0xB60]

theorem parity_inverted (group : Group) (address : Nat) :
    parity false (group.positions.map fun position =>
        decide (position ∈ (Erratum.invertedAt address).positions)) =
      decide (address ∈ brokenAt group) := by
  rw [Erratum.positions_invertedAt]
  by_cases first : address = 0xBA0
  · subst first
    cases group <;> decide
  · by_cases second : address = 0xB60
    · subst second
      cases group <;> decide
    · rw [if_neg first, if_neg second]
      have intact : address ∉ brokenAt group := by
        cases group <;> simp [brokenAt, first, second]
      rw [decide_eq_false intact]
      cases group <;> rfl

theorem check_pack (record : Record) (group : Group) :
    (pack record).check group = !decide (record.address.toNat ∈ brokenAt group) := by
  have regular := check_packRegular record group
  have bits := funext (bit_pack record)
  rw [check_eq_parity] at regular ⊢
  rw [bits, parity_map_xor, parity_inverted, regular, Bool.true_xor]

theorem checkAddress_pack (record : Record) :
    (pack record).checkAddress =
      !decide (8 ∈ (Erratum.invertedAt record.address.toNat).positions) := by
  let inverted := decide (8 ∈ (Erratum.invertedAt record.address.toNat).positions)
  let odd := decide (Odd (addressOnes record.address))
  calc
    (pack record).checkAddress = ((pack record).bit 8 ^^ odd) := rfl
    _ = (((packRegular record).bit 8 ^^ inverted) ^^ odd) := by rw [bit_pack]
    _ = ((packRegular record).checkAddress ^^ inverted) := Bool.xor_right_comm _ _ _
    _ = !inverted := by rw [checkAddress_packRegular, Bool.true_xor]

/-- A regular word passes all checks.  A word that the hardware holds passes them as
well, except at the two addresses with errata: there the inversions break every check
in which an odd number of bits are inverted. -/
theorem checks_of_record (record : Record) :
    (∀ group, (packRegular record).check group = true) ∧
    (packRegular record).checkAddress = true ∧
    ((pack record).check .pn = false ↔ (pack record).address = 0xB60) ∧
    ((pack record).check .ps = false ↔ (pack record).address = 0xBA0) ∧
    ((pack record).check .pc = false ↔
      (pack record).address = 0xBA0 ∨ (pack record).address = 0xB60) ∧
    ((pack record).checkAddress = false ↔
      (pack record).address = 0xBA0 ∨ (pack record).address = 0xB60) := by
  have isAddress (value : BitVec addressBits) :
      record.address.toNat = value.toNat ↔ (pack record).address = value :=
    BitVec.toNat_inj
  refine ⟨check_packRegular record, checkAddress_packRegular record, ?_, ?_, ?_, ?_⟩
  · rw [check_pack, Bool.not_eq_false', decide_eq_true_eq, ← isAddress]
    exact List.mem_singleton
  · rw [check_pack, Bool.not_eq_false', decide_eq_true_eq, ← isAddress]
    exact List.mem_singleton
  · rw [check_pack, Bool.not_eq_false', decide_eq_true_eq, ← isAddress, ← isAddress]
    exact List.mem_cons.trans (or_congr_right List.mem_singleton)
  · rw [checkAddress_pack, Bool.not_eq_false', decide_eq_true_eq, ← isAddress, ← isAddress]
    exact Erratum.pa_mem_positions_invertedAt _

end Word

end Microcode
