namespace Microcode

/-!
Odd parity.
-/

/-- The seed, inverted once for every set bit.  Over a true seed this is the bit
that makes the number of set bits odd. -/
def parity (seed : Bool) (bits : List Bool) : Bool :=
  bits.foldl Bool.xor seed

theorem parity_cons (seed bit : Bool) (bits : List Bool) :
    parity seed (bit :: bits) = parity (seed ^^ bit) bits :=
  rfl

theorem parity_append (seed : Bool) (left right : List Bool) :
    parity seed (left ++ right) = parity (parity seed left) right :=
  List.foldl_append

end Microcode
