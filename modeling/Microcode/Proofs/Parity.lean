import Microcode.Parity.Fold
import Mathlib.Algebra.Ring.Parity

namespace Microcode

/-!
Laws of parity.

A parity is its seed, inverted when an odd number of bits are set.  So the order of
the bits has no influence on it, and the parity of bits that are combined place by
place is the combination of their parities.
-/

/-- The seed can be put in at the end as well. -/
theorem parity_eq_xor (seed : Bool) (bits : List Bool) :
    parity seed bits = (seed ^^ parity false bits) := by
  induction bits generalizing seed with
  | nil => simp [parity]
  | cons bit bits ih =>
      rw [parity_cons, parity_cons, ih (seed ^^ bit), ih (false ^^ bit), Bool.false_xor,
        Bool.xor_assoc]

theorem parity_false_cons (bit : Bool) (bits : List Bool) :
    parity false (bit :: bits) = (bit ^^ parity false bits) := by
  rw [parity_cons, Bool.false_xor, parity_eq_xor]

/-- Over a false seed the parity tells whether an odd number of bits are set. -/
theorem parity_false_eq_odd (bits : List Bool) :
    parity false bits = decide (Odd (bits.countP id)) := by
  induction bits with
  | nil => rfl
  | cons bit bits ih =>
      rw [parity_false_cons, ih]
      cases bit with
      | false => simp
      | true => simp [Nat.odd_add_one, -Nat.not_odd_iff_even]

theorem parity_eq_odd (seed : Bool) (bits : List Bool) :
    parity seed bits = (seed ^^ decide (Odd (bits.countP id))) := by
  rw [parity_eq_xor, parity_false_eq_odd]

theorem parity_perm {left right : List Bool} (same : left.Perm right) (seed : Bool) :
    parity seed left = parity seed right := by
  rw [parity_eq_odd, parity_eq_odd, same.countP_eq]

/-- The bit that is computed over a true seed makes the number of set bits odd. -/
theorem parity_false_cons_parity_true (bits : List Bool) :
    parity false (parity true bits :: bits) = true := by
  rw [parity_false_cons, parity_eq_xor true]
  cases parity false bits <;> rfl

section Positions

variable {Position : Type} (left right : Position → Bool)

theorem parity_map_xor (positions : List Position) :
    parity false (positions.map fun position => left position ^^ right position) =
      (parity false (positions.map left) ^^ parity false (positions.map right)) := by
  induction positions with
  | nil => rfl
  | cons position positions ih =>
      simp only [List.map_cons, parity_false_cons, ih]
      rw [Bool.xor_assoc, Bool.xor_assoc, Bool.xor_left_comm (right position)]

/-- Of two counts just one is odd when an odd number of positions tell them apart. -/
theorem odd_countP_xor (positions : List Position) :
    Odd (positions.countP fun position => left position ^^ right position) ↔
      ¬ (Odd (positions.countP left) ↔ Odd (positions.countP right)) := by
  have combined := parity_map_xor left right positions
  simp only [parity_false_eq_odd, List.countP_map, Function.id_comp] at combined
  change decide (Odd (positions.countP fun position => left position ^^ right position)) =
    (decide (Odd (positions.countP left)) ^^ decide (Odd (positions.countP right))) at combined
  rw [← decide_eq_true_iff (p := Odd _), combined]
  by_cases first : Odd (positions.countP left) <;>
    by_cases second : Odd (positions.countP right) <;> simp [first, second]

end Positions

end Microcode
