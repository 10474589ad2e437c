import Microcode.Parity.Coverage
import Microcode.Proofs.Parity
import Mathlib.Algebra.BigOperators.Ring.Nat
import Mathlib.Algebra.Order.Ring.Canonical

namespace Microcode

/-!
Parity over positions that may occur more than once.

Whatever is read at a position inverts a parity each time that the position occurs, so only those
positions matter that occur an odd number of times.  In the ranges of a coverage a position occurs
once for every range that it lies in.  The order of the ranges has no influence on this number, and
neither has a division of a range in two.
-/

/-! ## Bits -/

/-- A bit that is put in twice inverts the parity twice or not at all. -/
theorem parity_insert_twice (seed bit : Bool) (before between behind : List Bool) :
    parity seed (before ++ bit :: (between ++ bit :: behind)) =
      parity seed (before ++ (between ++ behind)) := by
  have moved : (before ++ bit :: (between ++ bit :: behind)).Perm
      (bit :: bit :: (before ++ (between ++ behind))) :=
    calc
      (before ++ bit :: (between ++ bit :: behind)).Perm
          (bit :: (before ++ (between ++ bit :: behind))) := List.perm_middle
      _ = bit :: ((before ++ between) ++ bit :: behind) := by rw [List.append_assoc]
      List.Perm _ (bit :: bit :: ((before ++ between) ++ behind)) := List.perm_middle.cons bit
      _ = bit :: bit :: (before ++ (between ++ behind)) := by rw [List.append_assoc]
  rw [parity_perm moved, parity_cons, parity_cons, Bool.xor_assoc, Bool.xor_self, Bool.xor_false]

/-- The stored parity bit completes the bits wherever it stands among them. -/
theorem parity_false_insert_parity_true (before behind : List Bool) :
    parity false (before ++ parity true (before ++ behind) :: behind) = true := by
  rw [parity_perm List.perm_middle]
  exact parity_false_cons_parity_true (before ++ behind)

/-! ## Positions -/

/-- The positions that occur an odd number of times. -/
def oddPositions (positions : List Nat) : Finset Nat :=
  positions.toFinset.filter fun position => Odd (positions.count position)

theorem mem_oddPositions {positions : List Nat} {position : Nat} :
    position ∈ oddPositions positions ↔ Odd (positions.count position) := by
  rw [oddPositions, Finset.mem_filter, List.mem_toFinset]
  refine and_iff_right_of_imp ?_
  intro odd
  exact List.count_pos_iff.mp odd.pos

theorem oddPositions_eq_iff {left right : List Nat} :
    oddPositions left = oddPositions right ↔
      ∀ position, Odd (left.count position) ↔ Odd (right.count position) := by
  simp only [Finset.ext_iff, mem_oddPositions]

/-- Occurrences that come in pairs do not count. -/
theorem odd_countP_iff (read : Nat → Bool) (positions : List Nat) :
    Odd (positions.countP read) ↔
      Odd ((oddPositions positions).filter fun position => read position).card := by
  let chosen := positions.filter read
  have same : (chosen.toFinset.filter fun position => Odd (chosen.count position)) =
      (oddPositions positions).filter fun position => read position := by
    ext position
    rw [Finset.mem_filter, Finset.mem_filter, mem_oddPositions, List.mem_toFinset]
    by_cases set : read position
    · have kept : chosen.count position = positions.count position := List.count_filter set
      rw [kept, and_iff_left set, and_iff_right_of_imp]
      intro odd
      exact List.mem_filter.mpr ⟨List.count_pos_iff.mp odd.pos, set⟩
    · refine iff_of_false ?_ fun found => set found.2
      exact fun found => set (List.mem_filter.mp found.1).2
  rw [List.countP_eq_length_filter, ← List.sum_toFinset_count_eq_length,
    Finset.odd_sum_iff_odd_card_odd, same]

/-- Only the positions that occur an odd number of times are seen by a parity. -/
theorem parity_map_eq (seed : Bool) (positions : List Nat) (read : Nat → Bool) :
    parity seed (positions.map read) =
      (seed ^^ decide (Odd ((oddPositions positions).filter fun position => read position).card)) := by
  have counted : (positions.map read).countP id = positions.countP read := List.countP_map
  rw [parity_eq_odd, counted]
  simp only [odd_countP_iff]

theorem parity_map_congr {left right : List Nat} (same : oddPositions left = oddPositions right)
    (seed : Bool) (read : Nat → Bool) :
    parity seed (left.map read) = parity seed (right.map read) := by
  rw [parity_map_eq, parity_map_eq, same]

/-- A parity sees them all: where two lists differ, one reading tells them apart. -/
theorem oddPositions_eq_of_parity {left right : List Nat}
    (same : ∀ read : Nat → Bool, parity false (left.map read) = parity false (right.map read)) :
    oddPositions left = oddPositions right := by
  rw [oddPositions_eq_iff]
  intro position
  have single (positions : List Nat) :
      parity false (positions.map (· == position)) = decide (Odd (positions.count position)) := by
    rw [parity_false_eq_odd, List.countP_map]
    rfl
  have here := same (· == position)
  rw [single, single] at here
  exact decide_eq_decide.mp here

/-! ## Ranges -/

namespace Coverage

/-- Whether a position lies in a range.  No position lies in a range whose ends are in reverse
order. -/
def within (position : Nat) (range : Nat × Nat) : Bool :=
  range.1 ≤ position ∧ position ≤ range.2

theorem count_range (position : Nat) (range : Nat × Nat) :
    (List.range' range.1 (range.2 + 1 - range.1)).count position =
      if within position range then 1 else 0 := by
  have distinct : (List.range' range.1 (range.2 + 1 - range.1)).Nodup := List.nodup_range'
  have member : position ∈ List.range' range.1 (range.2 + 1 - range.1) ↔ within position range := by
    rw [List.mem_range'_1, within, decide_eq_true_iff]
    omega
  rw [distinct.count]
  simp only [member]

/-- A position occurs as often as there are ranges around it. -/
theorem count_positions (coverage : Coverage) (position : Nat) :
    coverage.positions.count position = coverage.ranges.countP (within position) := by
  rcases coverage with ⟨bit, ranges⟩
  change (ranges.flatMap _).count position = _
  induction ranges with
  | nil => rfl
  | cons range ranges ih =>
      rw [List.flatMap_cons, List.count_append, ih, List.countP_cons, Nat.add_comm]
      exact congrArg _ (count_range position range)

theorem oddPositions_eq_of_perm {left right : Coverage} (same : left.ranges.Perm right.ranges) :
    oddPositions left.positions = oddPositions right.positions := by
  rw [oddPositions_eq_iff]
  intro position
  rw [count_positions, count_positions, same.countP_eq]

/-- A position of a divided range lies in just one of the two parts. -/
theorem within_divided {low middle high : Nat} (left : low ≤ middle + 1) (right : middle ≤ high)
    (position : Nat) :
    ((if within position (low, middle) then 1 else 0) +
        if within position (middle + 1, high) then 1 else 0) =
      if within position (low, high) then 1 else 0 := by
  simp only [within, decide_eq_true_eq]
  by_cases lower : position ≤ middle
  · have beyond : ¬ (middle + 1 ≤ position ∧ position ≤ high) := by omega
    have here : low ≤ position ∧ position ≤ middle ↔ low ≤ position ∧ position ≤ high := by omega
    rw [if_neg beyond, if_congr here rfl rfl, Nat.add_zero]
  · have beyond : ¬ (low ≤ position ∧ position ≤ middle) := by omega
    have here : middle + 1 ≤ position ∧ position ≤ high ↔ low ≤ position ∧ position ≤ high := by
      omega
    rw [if_neg beyond, if_congr here rfl rfl, Nat.zero_add]

theorem oddPositions_eq_of_divided (bit : ParityBit) (before behind : List (Nat × Nat))
    {low middle high : Nat} (left : low ≤ middle + 1) (right : middle ≤ high) :
    oddPositions (positions ⟨bit, before ++ (low, middle) :: (middle + 1, high) :: behind⟩) =
      oddPositions (positions ⟨bit, before ++ (low, high) :: behind⟩) := by
  rw [oddPositions_eq_iff]
  intro position
  have parts := within_divided left right position
  have counts : (before ++ (low, middle) :: (middle + 1, high) :: behind).countP (within position) =
      (before ++ (low, high) :: behind).countP (within position) := by
    simp only [List.countP_append, List.countP_cons]
    omega
  rw [count_positions, count_positions, counts]

end Coverage

/-- A parity is its seed, inverted when an odd number of bits are set.  Neither the order of the
bits has an influence on it, nor a bit that is put in twice, and the bits can be taken in two
parts.  A stored parity bit makes the number of set bits odd.  Over the ranges of a coverage only
those positions count that lie in an odd number of them, however the ranges are ordered and
divided. -/
theorem parity_by_odd_occurrences :
    (∀ seed bits, parity seed bits = (seed ^^ decide (Odd (bits.countP id)))) ∧
    (∀ seed left right, left.Perm right → parity seed left = parity seed right) ∧
    (∀ seed left right, parity seed (left ++ right) = parity (parity seed left) right) ∧
    (∀ seed bit before between behind,
      parity seed (before ++ bit :: (between ++ bit :: behind)) =
        parity seed (before ++ (between ++ behind))) ∧
    (∀ before behind, parity false (before ++ parity true (before ++ behind) :: behind) = true) ∧
    (∀ (coverage : Coverage) position, coverage.positions.count position =
      coverage.ranges.countP fun range => range.1 ≤ position ∧ position ≤ range.2) ∧
    (∀ (coverage : Coverage) seed read, parity seed (coverage.positions.map read) =
      (seed ^^ decide
        (Odd ((oddPositions coverage.positions).filter fun position => read position).card))) ∧
    (∀ left right : Coverage,
      (∀ position, Odd (left.positions.count position) ↔ Odd (right.positions.count position)) ↔
        ∀ seed read,
          parity seed (left.positions.map read) = parity seed (right.positions.map read)) ∧
    (∀ left right : Coverage, left.ranges.Perm right.ranges → ∀ seed read,
      parity seed (left.positions.map read) = parity seed (right.positions.map read)) ∧
    (∀ bit before low middle high behind, low ≤ middle + 1 → middle ≤ high → ∀ seed read,
      parity seed ((Coverage.positions
          ⟨bit, before ++ (low, middle) :: (middle + 1, high) :: behind⟩).map read) =
        parity seed ((Coverage.positions ⟨bit, before ++ (low, high) :: behind⟩).map read)) := by
  refine ⟨parity_eq_odd, fun _ _ _ same => parity_perm same _, parity_append,
    parity_insert_twice, parity_false_insert_parity_true, Coverage.count_positions,
    fun coverage seed => parity_map_eq seed coverage.positions, ?_, ?_, ?_⟩
  · intro left right
    rw [← oddPositions_eq_iff]
    constructor
    · exact fun same seed => parity_map_congr same seed
    · exact fun same => oddPositions_eq_of_parity (same false)
  · intro left right same seed
    exact parity_map_congr (Coverage.oddPositions_eq_of_perm same) seed
  · intro bit before low middle high behind left right seed
    exact parity_map_congr (Coverage.oddPositions_eq_of_divided bit before behind left right) seed

/-- The positions of PS once more, with a range that holds no position and one that is listed
twice. -/
def scattered : Coverage where
  bit := .ps
  ranges := [(54, 54), (40, 41), (8, 20), (9, 3), (21, 32), (40, 41), (52, 52)]

theorem parity_by_odd_occurrences_scattered :
    (∀ position,
      Odd (scattered.positions.count position) ↔ Odd (Coverage.ps.positions.count position)) ∧
    (∀ read, parity true (scattered.positions.map read) = Coverage.ps.parity read) ∧
    parity true [false, true, true] = parity true [true, false, true] ∧
    (∀ read,
      parity true ((Coverage.positions ⟨.ps, [(54, 54), (8, 32), (52, 52)]⟩).map read) =
        Coverage.ps.parity read) ∧
    (8 ≤ 20 + 1 ∧ 20 ≤ 32 ∧ ∀ read,
      parity true
          ((Coverage.positions ⟨.ps, [(8, 20), (21, 32), (52, 52), (54, 54)]⟩).map read) =
        Coverage.ps.parity read) := by
  rcases parity_by_odd_occurrences with
    ⟨-, reordered, -, -, -, -, -, occurrences, moved, divided⟩
  have odd : ∀ position,
      Odd (scattered.positions.count position) ↔ Odd (Coverage.ps.positions.count position) :=
    oddPositions_eq_iff.mp (by decide +kernel)
  have swapped : [(54, 54), (8, 32), (52, 52)].Perm Coverage.ps.ranges := by decide
  refine ⟨odd, (occurrences _ _).mp odd true, reordered _ _ _ (.swap _ _ _), ?_, by decide,
    by decide, ?_⟩
  · exact moved ⟨.ps, [(54, 54), (8, 32), (52, 52)]⟩ .ps swapped true
  · exact divided .ps [] 8 20 32 [(52, 52), (54, 54)] (by decide) (by decide) true

end Microcode
