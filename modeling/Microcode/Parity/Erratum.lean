import Microcode.Parity.Flag

namespace Microcode

/-!
Errata of the hardware.

The control store holds two words with wrong parity.  They are kept as they were
built, so a conversion inverts the same parity bits.
-/

structure Erratum where
  address : Nat
  inverted : ParityFlags

namespace Erratum

def all : List Erratum :=
  [{ address := 0xBA0, inverted := .ofBits [.pa, .pc] },
    { address := 0xB60, inverted := .ofBits [.pn, .ps, .pa, .pc] }]

/-- The parity bits that are inverted at an address. -/
def invertedAt (address : Nat) : ParityFlags :=
  (all.filter fun erratum => erratum.address == address).foldl
    (fun flags erratum => flags.union erratum.inverted) .empty

end Erratum

end Microcode
