import Microcode.Proofs.LetterCase
import Microcode.Proofs.Truncation
import Mathlib.Order.Bounds.Basic

namespace Microcode
namespace Hex

/-!
Numerals read digit by digit.

A numeral can be read in a single pass.  Each digit moves the total up by four places and fills the
low ones, and the first octet that is no digit ends the pass.  The total is the number of the digits
so far in positional notation, as far as a word holds it: the high places are lost, and nothing
fails for want of them.  So the digits have to be known, and where they end, but nothing behind
their end.
-/

/-- What a digit stands for: its place among the digits.  The small letters stand behind the capital
ones. -/
def rank (octet : UInt8) : Nat :=
  let place := digitOctets.idxOf octet
  if place < 16 then place else place - 6

/-- Read digits behind those that made the total, and count them. -/
def scan (total : UInt32) (count : Nat) : Bytes → UInt32 × Nat
  | [] => (total, count)
  | octet :: rest =>
      match digit? octet with
      | some digit => scan (total <<< 4 ||| digit) (count + 1) rest
      | none => (total, count)

/-! ## Single digits -/

theorem digitNumber_eq_rank {octet : UInt8} (hex : octet ∈ digitOctets) :
    digitNumber octet = rank octet := by
  revert octet
  apply Octet.forall_of_lt
  decide +kernel

/-- A digit fills the places that a move by four leaves empty. -/
theorem shiftIn_eq_or (total : UInt32) (octet : UInt8) :
    shiftIn total octet = total <<< 4 ||| (digit? octet).getD 0 := by
  have small : digitNumber octet < 2 ^ 4 := digitNumber_lt octet
  have moved : total.toNat * 16 % 2 ^ 32 = (total.toNat % 2 ^ 28) <<< 4 := by
    rw [Nat.shiftLeft_eq]
    omega
  have sum : (total.toNat * 16 + digitNumber octet) % 2 ^ 32 =
      total.toNat * 16 % 2 ^ 32 + digitNumber octet := by
    omega
  apply UInt32.toNat_inj.mp
  rw [toNat_shiftIn, sum, moved, Nat.shiftLeft_add_eq_or_of_lt small, ← moved, UInt32.toNat_or,
    UInt32.toNat_shiftLeft, Nat.shiftLeft_eq]
  rfl

/-! ## Leading digits -/

theorem leading_cons_of_digit {octet : UInt8} (hex : isDigit octet) (text : Bytes) :
    leading (octet :: text) = octet :: leading text :=
  List.takeWhile_cons_of_pos hex

theorem leading_cons_of_foreign {octet : UInt8} (foreign : ¬ isDigit octet) (text : Bytes) :
    leading (octet :: text) = [] :=
  List.takeWhile_cons_of_neg foreign

/-- A pass over a text appends its leading digits to the total. -/
theorem scan_eq (total : UInt32) (count : Nat) (text : Bytes) :
    scan total count text = ((leading text).foldl shiftIn total, count + consumed text) := by
  induction text generalizing total count with
  | nil => rfl
  | cons octet text ih =>
      rw [scan, consumed]
      cases found : digit? octet with
      | none =>
          have foreign : ¬ isDigit octet := by
            rw [isDigit, found]
            exact Bool.false_ne_true
          rw [leading_cons_of_foreign foreign]
          rfl
      | some digit =>
          have hex : isDigit octet := by
            rw [isDigit, found]
            rfl
          have step : shiftIn total octet = total <<< 4 ||| digit := by
            rw [shiftIn_eq_or, found]
            rfl
          rw [leading_cons_of_digit hex, List.foldl_cons, step, List.length_cons]
          change scan _ _ text = _
          rw [ih, consumed, Nat.add_assoc, Nat.add_comm 1]

theorem take_consumed (text : Bytes) : text.take (consumed text) = leading text :=
  (List.prefix_iff_eq_take.mp (List.takeWhile_prefix isDigit)).symm

/-- Digits in front of a text belong to its leading digits. -/
theorem leading_append {front : Bytes} (digits : ∀ octet ∈ front, isDigit octet) (text : Bytes) :
    leading (front ++ text) = front ++ leading text :=
  List.takeWhile_append_of_pos digits

/-- What stands behind an octet that is no digit does not belong to the leading digits. -/
theorem leading_append_foreign (front : Bytes) {octet : UInt8} (foreign : ¬ isDigit octet)
    (behind : Bytes) : leading (front ++ octet :: behind) = leading front := by
  induction front with
  | nil => exact leading_cons_of_foreign foreign behind
  | cons first front ih =>
      by_cases hex : isDigit first
      · rw [List.cons_append, leading_cons_of_digit hex, leading_cons_of_digit hex, ih]
      · rw [List.cons_append, leading_cons_of_foreign hex, leading_cons_of_foreign hex]

/-- No longer front of a text consists of digits. -/
theorem isGreatest_consumed (text : Bytes) :
    IsGreatest
      {length | length ≤ text.length ∧ ∀ octet ∈ text.take length, octet ∈ digitOctets}
      (consumed text) := by
  constructor
  · refine ⟨length_leading_le text, ?_⟩
    rw [take_consumed]
    intro octet member
    exact (isDigit_iff_mem octet).mp (List.mem_takeWhile_imp member)
  · rintro length ⟨inside, digits⟩
    have front : ∀ octet ∈ text.take length, isDigit octet := fun octet member =>
      (isDigit_iff_mem octet).mpr (digits octet member)
    have longer := congrArg List.length (leading_append front (text.drop length))
    rw [List.take_append_drop, List.length_append, List.length_take_of_le inside] at longer
    rw [consumed, longer]
    exact Nat.le_add_right _ _

/-! ## Numbers -/

theorem digitsNumber_append (front text : Bytes) :
    digitsNumber (front ++ text) = digitsNumber front * 16 ^ text.length + digitsNumber text := by
  rw [digitsNumber, List.map_append, List.reverse_append, Nat.ofDigits_append, List.length_reverse,
    List.length_map, digitsNumber, digitsNumber]
  ring

/-- The positional notation of the digits up to the end of the numeral. -/
theorem toNat_value_eq_ofDigits (text : Bytes) :
    (value text).toNat =
      Nat.ofDigits 16 ((text.take (consumed text)).map rank).reverse % 2 ^ 32 := by
  have ranks : (leading text).map digitNumber = (leading text).map rank := by
    apply List.map_congr_left
    intro octet member
    exact digitNumber_eq_rank ((isDigit_iff_mem octet).mp (List.mem_takeWhile_imp member))
  rw [toNat_value, number, digitsNumber, ranks, take_consumed]

/-- Digits that go on move up the ones before them. -/
theorem toNat_value_append {front : Bytes} (digits : ∀ octet ∈ front, isDigit octet)
    (text : Bytes) :
    (value (front ++ text)).toNat =
      ((value front).toNat * 16 ^ consumed text + (value text).toNat) % 2 ^ 32 := by
  rw [toNat_value, toNat_value, toNat_value, number, leading_append digits, digitsNumber_append,
    number_of_digits digits, number, consumed]
  simp only [Nat.add_mod, Nat.mul_mod, Nat.mod_mod]

/-! ## Exact readings -/

theorem exact_eq_ok_iff_digits {text : Bytes} {found : UInt32} :
    exact text = .ok found ↔ (∀ octet ∈ text, octet ∈ digitOctets) ∧ found = value text := by
  simp only [← isDigit_iff_mem]
  constructor
  · intro taken
    have digits := exact_eq_ok_iff.mp ⟨found, taken⟩
    rw [exact_of_digits digits] at taken
    cases taken
    exact ⟨digits, rfl⟩
  · rintro ⟨digits, rfl⟩
    exact exact_of_digits digits

theorem exact_of_foreign {front : Bytes} (digits : ∀ digit ∈ front, digit ∈ digitOctets)
    {octet : UInt8} (foreign : octet ∉ digitOctets) (behind : Bytes) :
    exact (front ++ octet :: behind) = .error (.notHex octet front.length) := by
  simp only [← isDigit_iff_mem] at digits foreign
  exact exact_append digits foreign behind

/-- A text is refused for the octet that ends its digits. -/
theorem exact_eq_error_iff_foreign {text : Bytes} {fault : DigitFault} :
    exact text = .error fault ↔
      ∃ front octet behind, text = front ++ octet :: behind ∧
        (∀ digit ∈ front, digit ∈ digitOctets) ∧ octet ∉ digitOctets ∧
        fault = .notHex octet front.length := by
  constructor
  · intro failed
    have opened : ∃ octet ∈ text, octet ∉ digitOctets := by
      have stopped := exact_eq_error_iff_not_digits.mp ⟨fault, failed⟩
      simpa only [isDigit_iff_mem, not_forall, exists_prop] using stopped
    rcases exists_end_of_open opened with ⟨front, octet, behind, rfl, digits, foreign, -⟩
    rw [exact_of_foreign digits foreign] at failed
    cases failed
    exact ⟨front, octet, behind, rfl, digits, foreign, rfl⟩
  · rintro ⟨front, octet, behind, rfl, digits, foreign, rfl⟩
    exact exact_of_foreign digits foreign behind

/-- A refusal does not depend on what stands behind an octet that is no digit. -/
theorem exact_append_foreign (front : Bytes) {octet : UInt8} (foreign : octet ∉ digitOctets)
    (behind other : Bytes) : exact (front ++ octet :: behind) = exact (front ++ octet :: other) := by
  by_cases digits : ∀ digit ∈ front, digit ∈ digitOctets
  · rw [exact_of_foreign digits foreign, exact_of_foreign digits foreign]
  · have opened : ∃ octet ∈ front, octet ∉ digitOctets := by
      simpa only [not_forall, exists_prop] using digits
    rcases exists_end_of_open opened with ⟨first, earlier, rest, rfl, clean, stopped, -⟩
    rw [List.append_assoc, List.append_assoc, List.cons_append, List.cons_append,
      exact_of_foreign clean stopped, exact_of_foreign clean stopped]

/-- A numeral reaches as far as its digits do, and it has the value of their positional notation
as far as a word holds it.  Digits that go on move up the ones before them.  An exact reading takes
a text that consists of digits, for the same value, and is refused any other text for the first
octet that is none.  What stands behind such an octet has no influence on either reading. -/
theorem scanned_up_to_foreign (text : Bytes) :
    scan 0 0 text = (value text, consumed text) ∧
    IsGreatest
      {length | length ≤ text.length ∧ ∀ octet ∈ text.take length, octet ∈ digitOctets}
      (consumed text) ∧
    (value text).toNat =
      Nat.ofDigits 16 ((text.take (consumed text)).map rank).reverse % 2 ^ 32 ∧
    (∀ found, exact text = .ok found ↔
      (∀ octet ∈ text, octet ∈ digitOctets) ∧ found = value text) ∧
    (∀ fault, exact text = .error fault ↔
      ∃ front octet behind, text = front ++ octet :: behind ∧
        (∀ digit ∈ front, digit ∈ digitOctets) ∧ octet ∉ digitOctets ∧
        fault = .notHex octet front.length) ∧
    ((∀ octet ∈ text, octet ∈ digitOctets) → ∀ more, (∀ octet ∈ more, octet ∈ digitOctets) →
      (value (text ++ more)).toNat =
        ((value text).toNat * 16 ^ more.length + (value more).toNat) % 2 ^ 32) ∧
    (∀ octet, octet ∉ digitOctets → ∀ behind,
      value (text ++ octet :: behind) = value text ∧
      consumed (text ++ octet :: behind) = consumed text ∧
      ∀ other, exact (text ++ octet :: behind) = exact (text ++ octet :: other)) := by
  refine ⟨?_, isGreatest_consumed text, toNat_value_eq_ofDigits text,
    fun _ => exact_eq_ok_iff_digits, fun _ => exact_eq_error_iff_foreign, ?_, ?_⟩
  · rw [scan_eq, Nat.zero_add, value]
  · simp only [← isDigit_iff_mem]
    intro digits more further
    have whole : consumed more = more.length := by rw [consumed, leading_eq_self_iff.mpr further]
    rw [toNat_value_append digits, whole]
  · intro octet foreign behind
    have ended : leading (text ++ octet :: behind) = leading text :=
      leading_append_foreign text (foreign ∘ (isDigit_iff_mem octet).mp) behind
    refine ⟨?_, ?_, exact_append_foreign text foreign behind⟩
    · rw [value, value, ended]
    · rw [consumed, consumed, ended]

/-- More digits than a word holds, in both cases. -/
def longNumeral : Bytes :=
  Utf8.encode "1dEAdbEEf"

/-- The first digit is lost, and so are the next four behind as many more. -/
theorem scanned_up_to_foreign_longNumeral :
    value longNumeral = 0xDEADBEEF ∧
    ((∀ octet ∈ longNumeral, octet ∈ digitOctets) ∧
      (∀ octet ∈ Utf8.encode "C0de", octet ∈ digitOctets) ∧
      (value (longNumeral ++ Utf8.encode "C0de")).toNat = 0xBEEFC0DE) ∧
    Octet.question ∉ digitOctets ∧
    consumed (longNumeral ++ Octet.question :: Utf8.encode "1") = 9 ∧
    exact (longNumeral ++ Octet.question :: Utf8.encode "1") =
      .error (.notHex Octet.question 9) := by
  have digits : ∀ octet ∈ longNumeral, octet ∈ digitOctets := by decide +kernel
  have more : ∀ octet ∈ Utf8.encode "C0de", octet ∈ digitOctets := by decide +kernel
  have foreign : Octet.question ∉ digitOctets := by decide +kernel
  rcases scanned_up_to_foreign longNumeral with ⟨scanned, -, -, -, -, longer, ended⟩
  rcases scanned_up_to_foreign (longNumeral ++ Octet.question :: Utf8.encode "1") with
    ⟨-, -, -, -, refused, -, -⟩
  have pair : (value longNumeral, consumed longNumeral) = (0xDEADBEEF, 9) := by
    rw [← scanned]
    decide +kernel
  have total : value longNumeral = 0xDEADBEEF := congrArg Prod.fst pair
  refine ⟨total, ⟨digits, more, ?_⟩, foreign, ?_, ?_⟩
  · rw [longer digits _ more, total]
    decide +kernel
  · rw [(ended _ foreign _).2.1]
    exact congrArg Prod.snd pair
  · exact (refused _).mpr ⟨longNumeral, _, _, rfl, digits, foreign, rfl⟩

end Hex
end Microcode
