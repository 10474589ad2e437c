import Microcode.Parity.Flag
import Microcode.Parity.Fold

namespace Microcode

/-!
The positions of a word that each parity bit covers.

PN covers the next address.  PS covers everything from PA to PK, then AA and AK; so
PA has to stand in the word before PS is computed.  PC covers everything from CD to
CS, then AS.  PA covers no position: it is the parity of the word's address.
-/

structure Coverage where
  bit : ParityBit
  /-- Inclusive ranges of positions. -/
  ranges : List (Nat × Nat)

namespace Coverage

def positions (coverage : Coverage) : List Nat :=
  coverage.ranges.flatMap fun (low, high) => List.range' low (high + 1 - low)

/-- The parity over the covered positions of whatever is read there. -/
def parity (coverage : Coverage) (read : Nat → Bool) : Bool :=
  Microcode.parity true (coverage.positions.map read)

def pn : Coverage where
  bit := .pn
  ranges := [(1, 6)]

def ps : Coverage where
  bit := .ps
  ranges := [(8, 32), (52, 52), (54, 54)]

def pc : Coverage where
  bit := .pc
  ranges := [(34, 51), (53, 53)]

/-- The coverages in the order in which their parity bits are computed. -/
def all : List Coverage :=
  [pn, ps, pc]

end Coverage

end Microcode
