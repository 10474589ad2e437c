import Microcode.Proofs.Admission
import Microcode.Proofs.Numerals

namespace Microcode

/-!
Numerals and the case of their letters.

A numeral may be written in small letters or in capital ones, and its number does not tell
which.  Apart from that a number which fills its columns has a single spelling in them.  Any
other text of the same length differs in a digit, or its digits end too early for the number
to become as large.
-/

namespace Octet

/-- The small letter in place of a capital one. -/
def lower (octet : UInt8) : UInt8 :=
  if 0x41 ≤ octet ∧ octet ≤ 0x5A then octet + 0x20 else octet

/-- What holds of all octets can be checked value by value. -/
theorem forall_of_lt {property : UInt8 → Prop}
    (every : ∀ value < 256, property (UInt8.ofNat value)) (octet : UInt8) : property octet := by
  have here := every octet.toNat octet.toNat_lt
  rwa [UInt8.ofNat_toNat] at here

end Octet

/-- Two texts that differ at most in the case of their letters. -/
def SameButCase (left right : Bytes) : Prop :=
  left.map Octet.lower = right.map Octet.lower

instance (left right : Bytes) : Decidable (SameButCase left right) :=
  inferInstanceAs (Decidable (left.map Octet.lower = right.map Octet.lower))

namespace Hex

/-- Every digit in either case. -/
def digitOctets : Bytes :=
  Utf8.encode "0123456789ABCDEFabcdef"

theorem isDigit_iff_mem (octet : UInt8) : isDigit octet ↔ octet ∈ digitOctets := by
  revert octet
  apply Octet.forall_of_lt
  decide +kernel

theorem digit?_lower (octet : UInt8) : digit? (Octet.lower octet) = digit? octet := by
  revert octet
  apply Octet.forall_of_lt
  decide +kernel

/-- Digits in small letters are those that are written for their numbers. -/
theorem lower_of_isDigit {octet : UInt8} (hex : isDigit octet) :
    Octet.lower octet = digit .lower (digitNumber octet) := by
  revert octet
  apply Octet.forall_of_lt
  decide +kernel

/-! ## Numbers and spellings -/

theorem number_lower (text : Bytes) : number (text.map Octet.lower) = number text := by
  have digits : isDigit ∘ Octet.lower = isDigit := by
    funext octet
    rw [Function.comp_apply, isDigit, isDigit, digit?_lower]
  have numbers : digitNumber ∘ Octet.lower = digitNumber := by
    funext octet
    rw [Function.comp_apply, digitNumber, digitNumber, digit?_lower]
  rw [number, number, leading, List.takeWhile_map, digits, digitsNumber, List.map_map, numbers]
  rfl

/-- The same holds of a text that has no other octets. -/
theorem map_lower_of_digits {text : Bytes} (digits : ∀ octet ∈ text, isDigit octet) :
    text.map Octet.lower = (text.map digitNumber).map (digit .lower) := by
  rw [List.map_map]
  apply List.map_congr_left
  intro octet member
  exact lower_of_isDigit (digits octet member)

/-- Letter case aside, texts of digits are equal when their numbers are. -/
theorem sameButCase_of_digitsNumber {left right : Bytes}
    (leftDigits : ∀ octet ∈ left, isDigit octet) (rightDigits : ∀ octet ∈ right, isDigit octet)
    (lengths : left.length = right.length) (same : digitsNumber left = digitsNumber right) :
    SameButCase left right := by
  have numbers : left.map digitNumber = right.map digitNumber := by
    apply List.reverse_inj.mp
    apply Nat.ofDigits_inj_of_len_eq (by decide) ?_ (digitNumber_lt_of_mem left)
      (digitNumber_lt_of_mem right) same
    rw [List.length_reverse, List.length_reverse, List.length_map, List.length_map, lengths]
  rw [SameButCase, map_lower_of_digits leftDigits, map_lower_of_digits rightDigits, numbers]

/-- A numeral that ends early has lost at least one place. -/
theorem number_lt_of_open {text : Bytes} (opened : ∃ octet ∈ text, octet ∉ digitOctets) :
    number text < 16 ^ (text.length - 1) := by
  rcases opened with ⟨octet, member, foreign⟩
  have short : (leading text).length < text.length := by
    apply Nat.lt_of_not_le
    intro whole
    exact foreign ((isDigit_iff_mem octet).mp (length_le_consumed_iff.mp whole octet member))
  calc
    number text < 16 ^ (leading text).length := digitsNumber_lt _
    _ ≤ 16 ^ (text.length - 1) := Nat.pow_le_pow_right (by decide) (Nat.le_sub_one_of_lt short)

/-- A number without leading zeros is spelled in one way, letter case aside. -/
theorem number_eq_iff {text spelled : Bytes} (lengths : text.length = spelled.length)
    (digits : ∀ octet ∈ spelled, isDigit octet)
    (full : 16 ^ (spelled.length - 1) ≤ number spelled) :
    number text = number spelled ↔ SameButCase text spelled := by
  constructor
  · intro same
    have whole : ∀ octet ∈ text, isDigit octet := by
      intro octet member
      by_contra foreign
      have small := number_lt_of_open ⟨octet, member, foreign ∘ (isDigit_iff_mem octet).mpr⟩
      rw [lengths, same] at small
      exact Nat.not_le_of_lt small full
    apply sameButCase_of_digitsNumber whole digits lengths
    rwa [number, number, leading_eq_self_iff.mpr whole, leading_eq_self_iff.mpr digits] at same
  · intro same
    rw [← number_lower text, ← number_lower spelled]
    exact congrArg number same

/-- A numeral that ends early is its digits up to the first octet that is none. -/
theorem exists_end_of_open {text : Bytes} (opened : ∃ octet ∈ text, octet ∉ digitOctets) :
    ∃ front octet behind, text = front ++ octet :: behind ∧
      (∀ digit ∈ front, digit ∈ digitOctets) ∧ octet ∉ digitOctets ∧
      number text = digitsNumber front := by
  rcases opened with ⟨other, member, foreign⟩
  have divided : leading text ++ text.dropWhile isDigit = text :=
    List.takeWhile_append_dropWhile
  cases rest : text.dropWhile isDigit with
  | nil =>
      exact absurd ((isDigit_iff_mem other).mp (List.dropWhile_eq_nil_iff.mp rest other member))
        foreign
  | cons octet behind =>
      refine ⟨leading text, octet, behind, ?_, ?_, ?_, rfl⟩
      · rw [← rest, divided]
      · intro digit inFront
        exact (isDigit_iff_mem digit).mp (List.mem_takeWhile_imp inFront)
      · intro hex
        have first := List.head?_dropWhile_not isDigit text
        rw [rest] at first
        simp [(isDigit_iff_mem octet).mpr hex] at first

end Hex

end Microcode
