import Microcode.Numeral.Binary
import Microcode.Text.Utf8
import Mathlib.Data.Int.Bitwise
import Mathlib.Data.Nat.Digits.Defs

namespace Microcode

/-!
Binary numerals of signed and unsigned numbers.

A machine finds the bit at a position by moving the value there, and a signed value draws copies of
its sign after it.  These copies are never seen: a position within the value's own width takes the
bit that stands there, and for a position beyond it nothing is moved at all.  So the numeral holds
the low bits of the two's complement, and clear bits in front of them even where the number is
negative.
-/

/-- Whether the values of a type stand for negative numbers too. -/
inductive Signedness where
  | unsigned
  | signed
  deriving DecidableEq, Repr

namespace Signedness

variable {size : Nat}

/-- The number that a value stands for. -/
def number (sign : Signedness) (value : BitVec size) : Int :=
  match sign with
  | unsigned => value.toNat
  | signed => value.toInt

/-- Move a value to the right.  A signed value keeps its sign.  No value can be moved by its whole
width or more. -/
def shiftRight? (sign : Signedness) (value : BitVec size) (amount : Nat) : Option (BitVec size) :=
  if amount < size then
    match sign with
    | unsigned => some (value >>> amount)
    | signed => some (value.sshiftRight amount)
  else none

/-- A value is the two's complement of its number. -/
theorem ofInt_number (sign : Signedness) (value : BitVec size) :
    BitVec.ofInt size (sign.number value) = value := by
  cases sign with
  | unsigned => rw [number, BitVec.ofInt_natCast, BitVec.ofNat_toNat, BitVec.setWidth_eq]
  | signed => exact BitVec.ofInt_toInt

/-- Within the width, the number and its two's complement have the same bits. -/
theorem testBit_number (sign : Signedness) (value : BitVec size) {position : Nat}
    (inside : position < size) :
    (sign.number value).testBit position = value.getLsbD position := by
  have general (number : Int) :
      (BitVec.ofInt size number).getLsbD position = number.testBit position := by
    cases number with
    | ofNat number =>
        change (BitVec.ofInt size (number : Int)).getLsbD position = number.testBit position
        rw [BitVec.ofInt_natCast, BitVec.getLsbD_ofNat, decide_eq_true inside, Bool.true_and]
    | negSucc number =>
        change _ = !number.testBit position
        rw [BitVec.ofInt_negSucc_eq_not_ofNat, BitVec.getLsbD_not, BitVec.getLsbD_ofNat,
          decide_eq_true inside, Bool.true_and, Bool.true_and]
  rw [← general, ofInt_number]

/-- The numbers of a value as signed and as unsigned differ by whole turns. -/
theorem number_emod (sign : Signedness) (value : BitVec size) :
    sign.number value % 2 ^ size = value.toNat := by
  have whole : ((BitVec.ofInt size (sign.number value)).toNat : Int) =
      sign.number value % 2 ^ size := by
    rw [BitVec.toNat_ofInt, Int.toNat_of_nonneg (Int.emod_nonneg _ (by positivity))]
    push_cast
    rfl
  rw [← whole, ofInt_number]

end Signedness

namespace Binary

variable {size : Nat}

/-! ## Moved values -/

/-- The bit at a position, which is the lowest one of the value that is moved there. -/
def movedBit? (sign : Signedness) (value : BitVec size) (position : Nat) : Option Bool :=
  if position < size then (sign.shiftRight? value position).map fun moved => moved &&& 1 == 1
  else some false

def movedBits? (sign : Signedness) (value : BitVec size) (width : Nat) : Option (List Bool) :=
  (List.range width).reverse.mapM (movedBit? sign value)

/-- The lowest bit is all that is left of a value. -/
theorem and_one_beq_one (value : BitVec size) (nonempty : 0 < size) :
    (value &&& 1 == 1) = value.getLsbD 0 := by
  have one : (1 : BitVec size).toNat = 1 := BitVec.toNat_one nonempty
  rw [Bool.eq_iff_iff, beq_iff_eq, ← BitVec.toNat_inj, BitVec.toNat_and, one, Nat.and_one_is_mod,
    ← BitVec.testBit_toNat, Nat.testBit_zero, decide_eq_true_iff]

theorem movedBit?_eq (sign : Signedness) (value : BitVec size) (position : Nat) :
    movedBit? sign value position = some (value.getLsbD position) := by
  by_cases inside : position < size
  · have nonempty : 0 < size := Nat.lt_of_le_of_lt (Nat.zero_le position) inside
    rw [movedBit?, if_pos inside]
    cases sign with
    | unsigned =>
        rw [Signedness.shiftRight?, if_pos inside, Option.map_some, and_one_beq_one _ nonempty,
          BitVec.getLsbD_ushiftRight, Nat.add_zero]
    | signed =>
        rw [Signedness.shiftRight?, if_pos inside, Option.map_some, and_one_beq_one _ nonempty,
          BitVec.getLsbD_sshiftRight, decide_eq_false (Nat.not_le_of_lt nonempty), Nat.add_zero,
          if_pos inside, Bool.not_false, Bool.true_and]
  · rw [movedBit?, if_neg inside, BitVec.getLsbD_of_ge value position (Nat.le_of_not_lt inside)]

/-- Numerals list the bits from the highest position down. -/
theorem bits_eq_map_reverse (value : BitVec size) (width : Nat) :
    bits value width = (List.range width).reverse.map value.getLsbD := by
  apply List.ext_getElem
  · rw [length_bits, List.length_map, List.length_reverse, List.length_range]
  · intro index left right
    rw [getElem_bits, List.getElem_map, List.getElem_reverse, List.getElem_range, List.length_range]

/-- No value is moved too far. -/
theorem movedBits?_eq (sign : Signedness) (value : BitVec size) (width : Nat) :
    movedBits? sign value width = some (bits value width) := by
  rw [movedBits?, funext (movedBit?_eq sign value), bits_eq_map_reverse]
  exact List.mapM_pure

/-! ## Widths -/

/-- A wider numeral begins with the bits that a move by the narrower width leaves. -/
theorem bits_add (value : BitVec size) (width more : Nat) :
    bits value (width + more) = bits (value >>> width) more ++ bits value width := by
  have moved : (value >>> width).getLsbD = value.getLsbD ∘ (width + ·) := by
    funext position
    exact BitVec.getLsbD_ushiftRight value width position
  simp only [bits_eq_map_reverse, moved]
  rw [List.range_add, List.reverse_append, List.map_append, ← List.map_reverse, List.map_map]

theorem bits_ushiftRight_size (value : BitVec size) (width : Nat) :
    bits (value >>> size) width = List.replicate width false := by
  refine List.eq_replicate_iff.mpr ⟨length_bits _ width, ?_⟩
  rw [bits_eq_map_reverse]
  intro bit member
  rcases List.mem_map.mp member with ⟨position, -, rfl⟩
  rw [BitVec.getLsbD_ushiftRight, BitVec.getLsbD_of_ge value _ (Nat.le_add_right size position)]

theorem length_digits_bits (value : BitVec size) (width : Nat) :
    (digits (bits value width)).length = width := by
  rw [digits, List.length_map, length_bits]

/-- The first digits of a wider numeral can be left out. -/
theorem drop_digits_bits (value : BitVec size) (width more : Nat) :
    (digits (bits value (width + more))).drop more = digits (bits value width) := by
  rw [bits_add, digits, List.map_append]
  exact List.drop_left' (length_digits_bits _ more)

/-- Beyond the width of the value there are only zeros, whatever its sign. -/
theorem digits_bits_of_size_le (value : BitVec size) {width : Nat} (wide : size ≤ width) :
    digits (bits value width) =
      List.replicate (width - size) Octet.zero ++ digits (bits value size) := by
  rcases Nat.exists_eq_add_of_le wide with ⟨more, rfl⟩
  rw [bits_add, bits_ushiftRight_size, digits, List.map_append, List.map_replicate,
    Nat.add_sub_cancel_left]
  rfl

/-! ## Numbers -/

theorem ofDigits_getLsbD (value : BitVec size) (width : Nat) :
    Nat.ofDigits 2 ((List.range width).map fun position => (value.getLsbD position).toNat) =
      value.toNat % 2 ^ width := by
  induction width with
  | zero => rw [List.range_zero, List.map_nil, Nat.ofDigits_nil, pow_zero, Nat.mod_one]
  | succ width ih =>
      rw [List.range_succ, List.map_append, Nat.ofDigits_append, ih, List.length_map,
        List.length_range, List.map_singleton, Nat.ofDigits_singleton, Nat.mod_pow_succ,
        ← BitVec.testBit_toNat, Nat.toNat_testBit]

/-- The number that binary digits stand for, the most significant one first. -/
def number (text : Bytes) : Nat :=
  Nat.ofDigits 2 (text.map fun octet => (bit octet).toNat).reverse

theorem number_digits_bits (value : BitVec size) (width : Nat) :
    number (digits (bits value width)) = value.toNat % 2 ^ width := by
  have digit (bit' : Bool) : (bit (digit bit')).toNat = bit'.toNat := by rw [bit_digit]
  rw [number, digits, List.map_map, bits_eq_map_reverse, List.map_map, ← List.map_reverse,
    List.reverse_reverse, ← ofDigits_getLsbD]
  simp only [Function.comp_def, digit]

/-- What does not fit into the numeral or into the value is lost, and nothing else is. -/
theorem number_digits_bits_eq_emod (sign : Signedness) (value : BitVec size) (width : Nat) :
    (number (digits (bits value width)) : Int) = sign.number value % 2 ^ min width size := by
  have fits : value.toNat % 2 ^ width = value.toNat % 2 ^ min width size := by
    rcases Nat.le_total width size with narrow | wide
    · rw [Nat.min_eq_left narrow]
    · have small : value.toNat < 2 ^ width :=
        Nat.lt_of_lt_of_le value.isLt (Nat.pow_le_pow_right (by decide) wide)
      rw [Nat.min_eq_right wide, Nat.mod_eq_of_lt small, Nat.mod_eq_of_lt value.isLt]
  have divides : (2 : Int) ^ min width size ∣ 2 ^ size := pow_dvd_pow 2 (Nat.min_le_right _ _)
  rw [number_digits_bits, fits, ← Int.emod_emod_of_dvd _ divides, sign.number_emod]
  push_cast
  rfl

theorem getElem?_digits_bits (sign : Signedness) (value : BitVec size) {width index : Nat}
    (inside : index < width) :
    (digits (bits value width))[index]? =
      some (if width - 1 - index < size ∧ (sign.number value).testBit (width - 1 - index) then
        Octet.one else Octet.zero) := by
  have here : index < (bits value width).length := by rwa [length_bits]
  rw [digits, List.getElem?_map, List.getElem?_eq_getElem here, getElem_bits, Option.map_some,
    digit]
  by_cases within : width - 1 - index < size
  · simp only [within, true_and, sign.testBit_number value within]
  · rw [BitVec.getLsbD_of_ge value _ (Nat.le_of_not_lt within), if_neg Bool.false_ne_true,
      if_neg fun found => within found.1]

/-- The binary numeral of a signed or unsigned value has the width that is asked for.  Its digits
are the bits of the two's complement, from the highest position down, and zeros beyond the width of
the value.  So it is the number reduced to the narrower of the two widths, a wider numeral ends in
the narrower ones, and none of its digits takes a move by the width of the value or more. -/
theorem rendered_in_twos_complement (sign : Signedness) (value : BitVec size) (width : Nat) :
    (digits (bits value width)).length = width ∧
    (∀ index < width, (digits (bits value width))[index]? =
      some (if width - 1 - index < size ∧ (sign.number value).testBit (width - 1 - index) then
        Octet.one else Octet.zero)) ∧
    (number (digits (bits value width)) : Int) = sign.number value % 2 ^ min width size ∧
    (size ≤ width → digits (bits value width) =
      List.replicate (width - size) Octet.zero ++ digits (bits value size)) ∧
    (∀ more, (digits (bits value (width + more))).drop more = digits (bits value width)) ∧
    movedBits? sign value width = some (bits value width) :=
  ⟨length_digits_bits value width, fun _ => getElem?_digits_bits sign value,
    number_digits_bits_eq_emod sign value width, digits_bits_of_size_le value,
    drop_digits_bits value width, movedBits?_eq sign value width⟩

/-- A negative number in eight bits, to be written with twelve digits. -/
def minusTwo : BitVec 8 :=
  BitVec.ofInt 8 (-2)

theorem rendered_in_twos_complement_minusTwo :
    Signedness.signed.number minusTwo = -2 ∧
    (0 < 12 ∧ (digits (bits minusTwo 12))[0]? = some Octet.zero) ∧
    (number (digits (bits minusTwo 12)) : Int) = -2 % 2 ^ 8 ∧
    (8 ≤ 12 ∧ digits (bits minusTwo 12) = Utf8.encode "0000" ++ digits (bits minusTwo 8)) ∧
    movedBits? .signed minusTwo 12 = some (bits minusTwo 12) := by
  have negative : Signedness.signed.number minusTwo = -2 := by decide
  rcases rendered_in_twos_complement .signed minusTwo 12 with
    ⟨-, digit, reduced, padded, -, moved⟩
  refine ⟨negative, ⟨by decide, digit 0 (by decide)⟩, ?_, ⟨by decide, ?_⟩, moved⟩
  · rw [reduced, negative]
    rfl
  · rw [padded (by decide)]
    rfl

end Binary

end Microcode
