import Microcode.Text.Unprintable

namespace Microcode
namespace Quoted

/-!
Characters and texts in quotes, as messages show them.

A quoted text never breaks a line and never hides a character: control characters
and everything else that leaves no mark are written as their code points.
-/

/-- A code point in braces, in hexadecimal without leading zeros. -/
def codePoint (char : Char) : String :=
  "\\u\x7b" ++ String.ofList (Nat.toDigits 16 char.toNat) ++ "\x7d"

/-- One character between the given quotes.  Only the enclosing quote needs a
backslash; the other kind stands as it is. -/
def escape (quote char : Char) : String :=
  if char = '\x00' then "\\0"
  else if char = '\t' then "\\t"
  else if char = '\n' then "\\n"
  else if char = '\r' then "\\r"
  else if char = '\x5C' ∨ char = quote then String.ofList ['\x5C', char]
  else if Unprintable.isUnprintable char then codePoint char
  else String.singleton char

def enclose (quote : Char) (chars : List Char) : String :=
  String.singleton quote ++ String.join (chars.map (escape quote)) ++ String.singleton quote

/-- A single octet, shown as the code point of its value. -/
def octet (octet : UInt8) : String :=
  enclose '\x27' [Char.ofNat octet.toNat]

def text (text : String) : String :=
  enclose '\x22' text.toList

end Quoted
end Microcode
