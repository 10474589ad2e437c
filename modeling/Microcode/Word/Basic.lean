import Microcode.Numeral.Binary
import Microcode.Parity.Flag

namespace Microcode

/-!
Control words.
-/

/-- A word of the control store, with the most significant bit first. -/
structure Word where
  address : BitVec addressBits
  bits : Vector Bool wordBits
  deriving DecidableEq

namespace Word

/-- The number of cells that are set aside for a word. -/
abbrev cells : Nat := 64

/-- The bit in a cell.  Cells past the word's own bits are clear, and there is
nothing to read past the last cell. -/
def cell? (word : Word) (position : Nat) : Option Bool :=
  if position < cells then some (word.bits[position]?.getD false) else none

/-- The text of all bits. -/
def fullText (word : Word) : Bytes :=
  Binary.digits word.bits.toList

/-- The text of the bits that carry meaning. -/
def meaningfulText (word : Word) : Bytes :=
  Binary.digits (word.bits.toList.take meaningfulBits)

/-- The number of set bits. -/
def ones (word : Word) : Nat :=
  word.bits.toList.countP id

def parityBit (word : Word) (bit : ParityBit) : Bool :=
  word.bits[bit.position]

/-- The parity bit that a set names, if it names just one. -/
def parityBit? (word : Word) (flags : ParityFlags) : Option Bool :=
  flags.single?.map word.parityBit

/-- Invert the parity bits of a set. -/
def invert (word : Word) (flags : ParityFlags) : Word where
  address := word.address
  bits := flags.members.foldl
    (fun bits bit => bits.set bit.position (!bits[bit.position])) word.bits

end Word

end Microcode
