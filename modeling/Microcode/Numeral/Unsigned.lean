namespace Microcode
namespace Unsigned

/-!
Unsigned numerals in a given radix, with an upper bound.

A numeral is one or more digits, optionally after a plus sign.  There is no other
sign and no separator between digits.
-/

/-- The value of a digit in the largest radix, which uses every letter. -/
def digit? (char : Char) : Option Nat :=
  if '0' ≤ char ∧ char ≤ '9' then some (char.toNat - 0x30)
  else if 'a' ≤ char ∧ char ≤ 'z' then some (char.toNat - 0x57)
  else if 'A' ≤ char ∧ char ≤ 'Z' then some (char.toNat - 0x37)
  else none

def digitIn? (radix : Nat) (char : Char) : Option Nat :=
  (digit? char).filter (· < radix)

def ofDigits? (radix : Nat) : List Char → Option Nat
  | [] => none
  | digits => digits.foldlM (fun total char => (digitIn? radix char).map (total * radix + ·)) 0

/-- The value of a numeral, provided that it is below the bound. -/
def parse? (radix bound : Nat) (text : String) : Option Nat :=
  let digits :=
    match text.toList with
    | '+' :: digits => digits
    | digits => digits
  (ofDigits? radix digits).filter (· < bound)

end Unsigned
end Microcode
