import Microcode.Numeral.Unsigned
import Mathlib.Data.Nat.Digits.Defs
import Mathlib.Data.List.Basic

namespace Microcode

/-!
Decimal numerals.

A numeral is given by the list of its digits, without regard to how it is read.  Reading shifts
one character after the other into a total.  It ends with the number that the digits stand for,
and with none where a character is no digit.
-/

/-- A decimal numeral for a number: one or more digits, the most significant one first, with or
without a plus sign in front of them. -/
inductive Decimal : String → Nat → Prop where
  | plain {digits : List Nat} (nonempty : digits ≠ []) (small : ∀ digit ∈ digits, digit < 10) :
      Decimal (String.ofList (digits.map Nat.digitChar)) (Nat.ofDigits 10 digits.reverse)
  | signed {digits : List Nat} (nonempty : digits ≠ []) (small : ∀ digit ∈ digits, digit < 10) :
      Decimal (String.ofList ('+' :: digits.map Nat.digitChar)) (Nat.ofDigits 10 digits.reverse)

namespace Unsigned

theorem digitIn?_digitChar : ∀ digit < 10, digitIn? 10 digit.digitChar = some digit := by
  decide

theorem digitChar_ne_plus : ∀ digit < 10, Nat.digitChar digit ≠ '+' := by
  decide

theorem toNat_le_of_le {low char : Char} (above : low ≤ char) : low.toNat ≤ char.toNat :=
  UInt32.le_iff_toNat_le.mp (Char.le_def.mp above)

/-- The characters from zero to nine are the written digits. -/
theorem eq_digitChar {char : Char} (above : '0' ≤ char) (below : char ≤ '9') :
    char = Nat.digitChar (char.toNat - 0x30) := by
  have written : ∀ code < 0x3A, 0x30 ≤ code → Char.ofNat code = Nat.digitChar (code - 0x30) := by
    decide
  have found := written char.toNat (Nat.lt_succ_of_le (toNat_le_of_le below)) (toNat_le_of_le above)
  rwa [Char.ofNat_toNat] at found

theorem digitIn?_eq_some_iff {char : Char} {digit : Nat} :
    digitIn? 10 char = some digit ↔ digit < 10 ∧ char = digit.digitChar := by
  constructor
  · intro found
    rcases Option.filter_eq_some_iff.mp found with ⟨read, small⟩
    have bound : digit < 10 := of_decide_eq_true small
    refine ⟨bound, ?_⟩
    unfold digit? at read
    split at read
    case isTrue range =>
      cases read
      exact eq_digitChar range.1 range.2
    split at read
    case isTrue range =>
      -- Letters stand for ten and more.
      cases read
      have above := toNat_le_of_le range.1
      simp only [Char.reduceToNat] at above
      omega
    split at read
    case isTrue range =>
      cases read
      have above := toNat_le_of_le range.1
      simp only [Char.reduceToNat] at above
      omega
    cases read
  · rintro ⟨small, rfl⟩
    exact digitIn?_digitChar digit small

/-- Reading goes on from a total, which moves up by as many places as there are characters. -/
theorem foldlM_eq_some_iff {chars : List Char} {total value : Nat} :
    chars.foldlM (fun total char => (digitIn? 10 char).map (total * 10 + ·)) total = some value ↔
      ∃ digits : List Nat, (∀ digit ∈ digits, digit < 10) ∧ chars = digits.map Nat.digitChar ∧
        value = total * 10 ^ digits.length + Nat.ofDigits 10 digits.reverse := by
  induction chars generalizing total with
  | nil =>
      constructor
      · intro read
        cases read
        exact ⟨[], by simp⟩
      · rintro ⟨digits, -, empty, rfl⟩
        rw [List.map_eq_nil_iff.mp empty.symm]
        simp
  | cons char chars ih =>
      rw [List.foldlM_cons]
      have moved (digit : Nat) (digits : List Nat) :
          (total * 10 + digit) * 10 ^ digits.length + Nat.ofDigits 10 digits.reverse =
            total * 10 ^ (digit :: digits).length + Nat.ofDigits 10 (digit :: digits).reverse := by
        rw [List.reverse_cons, Nat.ofDigits_append, Nat.ofDigits_singleton, List.length_reverse,
          List.length_cons]
        ring
      constructor
      · intro read
        rcases Option.bind_eq_some_iff.mp read with ⟨next, first, rest⟩
        rcases Option.map_eq_some_iff.mp first with ⟨digit, found, rfl⟩
        rcases digitIn?_eq_some_iff.mp found with ⟨small, rfl⟩
        rcases ih.mp rest with ⟨digits, smaller, rfl, rfl⟩
        exact ⟨digit :: digits, List.forall_mem_cons.mpr ⟨small, smaller⟩, rfl, moved digit digits⟩
      · rintro ⟨digits, small, written, rfl⟩
        cases digits with
        | nil => cases written
        | cons digit digits =>
            rcases List.cons.inj written with ⟨rfl, rfl⟩
            rcases List.forall_mem_cons.mp small with ⟨first, rest⟩
            have behind := ih.mpr ⟨digits, rest, rfl, (moved digit digits).symm⟩
            rwa [digitIn?_digitChar digit first]

theorem ofDigits?_eq_some_iff {chars : List Char} {value : Nat} :
    ofDigits? 10 chars = some value ↔
      ∃ digits : List Nat, digits ≠ [] ∧ (∀ digit ∈ digits, digit < 10) ∧
        chars = digits.map Nat.digitChar ∧ value = Nat.ofDigits 10 digits.reverse := by
  cases chars with
  | nil =>
      constructor
      · intro read
        cases read
      · rintro ⟨digits, nonempty, -, empty, -⟩
        exact absurd (List.map_eq_nil_iff.mp empty.symm) nonempty
  | cons char chars =>
      rw [ofDigits?, foldlM_eq_some_iff]
      · constructor
        · rintro ⟨digits, small, written, value⟩
          have nonempty : digits ≠ [] := by
            rintro rfl
            cases written
          exact ⟨digits, nonempty, small, written, by simpa using value⟩
        · rintro ⟨digits, -, small, written, value⟩
          exact ⟨digits, small, written, by simpa using value⟩
      · exact List.cons_ne_nil char chars

/-- Reading accepts the decimal numerals below the bound, and nothing else. -/
theorem parse?_eq_some_iff {bound value : Nat} {text : String} :
    parse? 10 bound text = some value ↔ Decimal text value ∧ value < bound := by
  rw [parse?, Option.filter_eq_some_iff, decide_eq_true_eq, ofDigits?_eq_some_iff]
  refine and_congr_left fun _ => ?_
  constructor
  · rintro ⟨digits, nonempty, small, written, rfl⟩
    split at written
    case h_1 rest chars =>
      rw [← String.ofList_toList (s := text), chars, written]
      exact .signed nonempty small
    case h_2 =>
      rw [← String.ofList_toList (s := text), written]
      exact .plain nonempty small
  · intro decimal
    cases decimal with
    | @signed digits nonempty small => exact ⟨digits, nonempty, small, by simp, rfl⟩
    | @plain digits nonempty small =>
        refine ⟨digits, nonempty, small, ?_, rfl⟩
        rw [String.toList_ofList]
        cases digits with
        | nil => exact absurd rfl nonempty
        | cons digit digits =>
            have unsigned := digitChar_ne_plus digit (small digit List.mem_cons_self)
            simp [unsigned]

end Unsigned

/-- A numeral stands for only one number. -/
theorem Decimal.unique {text : String} {value other : Nat} (first : Decimal text value)
    (second : Decimal text other) : value = other := by
  have below : value < value + other + 1 := by omega
  have below' : other < value + other + 1 := by omega
  have read := Unsigned.parse?_eq_some_iff.mpr ⟨first, below⟩
  rw [Unsigned.parse?_eq_some_iff.mpr ⟨second, below'⟩] at read
  exact (Option.some.inj read).symm

end Microcode
