import Microcode.Numeral.Fault
import Microcode.Text.Octets

namespace Microcode
namespace Binary

/-!
Binary numerals, and the bit groups of a listing.
-/

/-- Only the digit one sets a bit.  The open mark, and any other octet, leaves it
clear. -/
def bit (octet : UInt8) : Bool :=
  octet == Octet.one

def digit (bit : Bool) : UInt8 :=
  if bit then Octet.one else Octet.zero

theorem bit_digit (value : Bool) : bit (digit value) = value := by
  cases value <;> decide

def digits (bits : List Bool) : Bytes :=
  bits.map digit

/-- The `width` low bits of a value, the most significant one first.  A value has
no bits past its own width, so a wider rendering is padded with clear bits,
whatever the sign the value stands for. -/
def bits {size : Nat} (value : BitVec size) (width : Nat) : List Bool :=
  (List.range width).map fun index => value.getLsbD (width - 1 - index)

theorem length_bits {size : Nat} (value : BitVec size) (width : Nat) :
    (bits value width).length = width := by
  simp [bits]

theorem getElem_bits {size : Nat} (value : BitVec size) (width index : Nat)
    (inside : index < (bits value width).length) :
    (bits value width)[index] = value.getLsbD (width - 1 - index) := by
  simp [bits]

def isGroupOctet (octet : UInt8) : Bool :=
  octet == Octet.zero || octet == Octet.one || octet == Octet.question

/-- The first octet that a bit group may not hold. -/
def fault? (group : Bytes) : Option DigitFault :=
  (group.zipIdx.find? fun (octet, _) => !isGroupOctet octet).map
    fun (octet, offset) => .notBit octet offset

end Binary
end Microcode
