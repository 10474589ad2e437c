import Microcode.Text.Quoted

namespace Microcode

/-!
Why a group of digits cannot be read.
-/

/-- The first octet that does not belong, and how many octets stand before it. -/
inductive DigitFault where
  | notHex (octet : UInt8) (offset : Nat)
  | notBit (octet : UInt8) (offset : Nat)
  deriving DecidableEq, Repr

namespace DigitFault

def octet : DigitFault → UInt8
  | notHex octet _ => octet
  | notBit octet _ => octet

def offset : DigitFault → Nat
  | notHex _ offset => offset
  | notBit _ offset => offset

def message : DigitFault → String
  | notHex octet offset => s!"invalid hex digit {Quoted.octet octet} at offset {offset}"
  | notBit octet offset =>
      s!"invalid bit character {Quoted.octet octet} at offset {offset}, expected 0, 1 or ?"

end DigitFault

end Microcode
