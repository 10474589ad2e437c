import Microcode.Numeral.Hex
import Mathlib.Data.List.TakeWhile
import Mathlib.Data.Nat.Digits.Defs

namespace Microcode
namespace Hex

/-!
Hexadecimal numerals as natural numbers.

A numeral stands for a natural number without any bound.  Its value as a 32-bit word
is that number reduced, which changes nothing for a numeral of at most eight digits.
-/

/-- The number that a digit stands for.  Anything else counts as zero. -/
def digitNumber (octet : UInt8) : Nat :=
  ((digit? octet).getD 0).toNat

/-- Each of the three ranges of digits starts at most sixteen below its end. -/
theorem toNat_sub_lt {octet offset high : UInt8} (above : offset ≤ octet) (below : octet ≤ high)
    (near : high.toNat < offset.toNat + 16) : (octet - offset).toUInt32.toNat < 16 := by
  have bound := UInt8.le_iff_toNat_le.mp below
  rw [UInt8.toNat_toUInt32, UInt8.toNat_sub_of_le _ _ above]
  omega

theorem digitNumber_lt (octet : UInt8) : digitNumber octet < 16 := by
  unfold digitNumber digit?
  split
  case isTrue range => exact toNat_sub_lt range.1 range.2 (by decide)
  split
  case isTrue range =>
    exact toNat_sub_lt (UInt8.le_trans (by decide) range.1) range.2 (by decide)
  split
  case isTrue range =>
    exact toNat_sub_lt (UInt8.le_trans (by decide) range.1) range.2 (by decide)
  decide

/-- The number that some digits stand for, the most significant one first. -/
def digitsNumber (digits : Bytes) : Nat :=
  Nat.ofDigits 16 (digits.map digitNumber).reverse

/-- The number that the leading digits of a text stand for. -/
def number (text : Bytes) : Nat :=
  digitsNumber (leading text)

theorem digitsNumber_cons (octet : UInt8) (digits : Bytes) :
    digitsNumber (octet :: digits) =
      digitNumber octet * 16 ^ digits.length + digitsNumber digits := by
  rw [digitsNumber, List.map_cons, List.reverse_cons, Nat.ofDigits_append,
    Nat.ofDigits_singleton, List.length_reverse, List.length_map, digitsNumber]
  ring

theorem digitNumber_lt_of_mem (digits : Bytes) :
    ∀ digit ∈ (digits.map digitNumber).reverse, digit < 16 := by
  intro digit member
  rcases List.mem_map.mp (List.mem_reverse.mp member) with ⟨octet, -, rfl⟩
  exact digitNumber_lt octet

theorem digitsNumber_lt (digits : Bytes) : digitsNumber digits < 16 ^ digits.length := by
  have bound := Nat.ofDigits_lt_base_pow_length (by decide) (digitNumber_lt_of_mem digits)
  rwa [List.length_reverse, List.length_map] at bound

theorem toNat_shiftIn (total : UInt32) (octet : UInt8) :
    (shiftIn total octet).toNat = (total.toNat * 16 + digitNumber octet) % 2 ^ 32 := by
  rw [shiftIn, UInt32.toNat_add, UInt32.toNat_mul, Nat.mod_add_mod]
  rfl

/-- Appending digits to a total moves it up by as many places. -/
theorem toNat_foldl_shiftIn (digits : Bytes) (total : UInt32) :
    (digits.foldl shiftIn total).toNat =
      (total.toNat * 16 ^ digits.length + digitsNumber digits) % 2 ^ 32 := by
  induction digits generalizing total with
  | nil => simp [digitsNumber, Nat.mod_eq_of_lt total.toNat_lt]
  | cons octet digits ih =>
      rw [List.foldl_cons, ih, toNat_shiftIn, digitsNumber_cons, List.length_cons, pow_succ,
        Nat.add_mod, Nat.mul_mod, Nat.mod_mod, ← Nat.mul_mod, ← Nat.add_mod]
      ring_nf

/-- High digits beyond the word are lost, and nothing else is. -/
theorem toNat_value (text : Bytes) : (value text).toNat = number text % 2 ^ 32 := by
  rw [value, toNat_foldl_shiftIn, UInt32.toNat_zero, Nat.zero_mul, Nat.zero_add, number]

theorem length_leading_le (text : Bytes) : (leading text).length ≤ text.length :=
  (List.takeWhile_prefix isDigit).length_le

/-- A text has no room for a number beyond its own length. -/
theorem number_lt (text : Bytes) : number text < 16 ^ text.length :=
  lt_of_lt_of_le (digitsNumber_lt _) (Nat.pow_le_pow_right (by decide) (length_leading_le text))

theorem toNat_value_of_length_le (text : Bytes) (short : text.length ≤ 8) :
    (value text).toNat = number text := by
  have bound : number text < 2 ^ 32 :=
    calc
      number text < 16 ^ text.length := number_lt text
      _ ≤ 16 ^ 8 := Nat.pow_le_pow_right (by decide) short
      _ = 2 ^ 32 := by decide
  rw [toNat_value, Nat.mod_eq_of_lt bound]

/-! ## Written digits -/

theorem isDigit_digit (letters : LetterCase) {value : Nat} (small : value < 16) :
    isDigit (digit letters value) = true := by
  rw [isDigit, digit?_digit letters small, Option.isSome_some]

theorem digitNumber_digit (letters : LetterCase) {value : Nat} (small : value < 16) :
    digitNumber (digit letters value) = value := by
  rw [digitNumber, digit?_digit letters small, Option.getD_some,
    UInt32.toNat_ofNat_of_lt' (Nat.lt_trans small (by decide))]

theorem isDigit_digits (letters : LetterCase) {values : List Nat}
    (small : ∀ value ∈ values, value < 16) :
    ∀ octet ∈ values.map (digit letters), isDigit octet := by
  intro octet member
  rcases List.mem_map.mp member with ⟨value, listed, rfl⟩
  exact isDigit_digit letters (small value listed)

/-- Written digits are read again as the number that they are the digits of. -/
theorem number_digits (letters : LetterCase) {values : List Nat}
    (small : ∀ value ∈ values, value < 16) :
    number (values.map (digit letters)) = Nat.ofDigits 16 values.reverse := by
  have numbers : (values.map (digit letters)).map digitNumber = values := by
    rw [List.map_map, List.map_congr_left, List.map_id]
    intro value member
    exact digitNumber_digit letters (small value member)
  rw [number, leading, List.takeWhile_eq_self_iff.mpr (isDigit_digits letters small),
    digitsNumber, numbers]

end Hex

end Microcode
