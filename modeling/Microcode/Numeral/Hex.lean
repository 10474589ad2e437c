import Microcode.Numeral.Fault
import Microcode.Text.Octets
import Microcode.Word.Size

namespace Microcode
namespace Hex

/-!
Hexadecimal numerals of a listing.

A numeral is read as far as its digits go: the first octet that is no digit ends
it, and what follows has no influence on its value.  Values are 32-bit words, so a
long numeral keeps its low eight digits.
-/

def digit? (octet : UInt8) : Option UInt32 :=
  if 0x30 ≤ octet ∧ octet ≤ 0x39 then some (octet - 0x30).toUInt32
  else if 0x41 ≤ octet ∧ octet ≤ 0x46 then some (octet - 0x37).toUInt32
  else if 0x61 ≤ octet ∧ octet ≤ 0x66 then some (octet - 0x57).toUInt32
  else none

def isDigit (octet : UInt8) : Bool :=
  (digit? octet).isSome

/-- The longest run of digits at the start. -/
def leading (text : Bytes) : Bytes :=
  text.takeWhile isDigit

/-- Append one digit at the low end. -/
def shiftIn (total : UInt32) (octet : UInt8) : UInt32 :=
  total * 16 + (digit? octet).getD 0

/-- The value of the leading digits, the most significant one first. -/
def value (text : Bytes) : UInt32 :=
  (leading text).foldl shiftIn 0

/-- How many octets the leading digits take. -/
def consumed (text : Bytes) : Nat :=
  (leading text).length

/-- The value of a text that holds digits only. -/
def exact (text : Bytes) : Except DigitFault UInt32 :=
  match text[consumed text]? with
  | none => .ok (value text)
  | some octet => .error (.notHex octet (consumed text))

/-- The letters in which the digits past nine are written. -/
inductive LetterCase where
  | lower
  | upper
  deriving DecidableEq, Repr

def LetterCase.firstLetter : LetterCase → UInt8
  | lower => 0x61
  | upper => 0x41

def digit (letters : LetterCase) (value : Nat) : UInt8 :=
  if value < 10 then Octet.zero + value.toUInt8
  else letters.firstLetter + (value - 10).toUInt8

theorem digit?_digit (letters : LetterCase) {value : Nat} (small : value < 16) :
    digit? (digit letters value) = some (UInt32.ofNat value) := by
  revert value
  cases letters <;> decide

/-- A control-store address takes exactly three digits. -/
def address (letters : LetterCase) (address : BitVec addressBits) : Bytes :=
  [digit letters (address.toNat / 256), digit letters (address.toNat / 16 % 16),
    digit letters (address.toNat % 16)]

end Hex
end Microcode
