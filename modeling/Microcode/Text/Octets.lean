namespace Microcode

/-!
Octet strings, and the octets a listing gives a meaning to.

Nothing requires a listing to be valid text, so every rule about its columns is
stated on octets.
-/

abbrev Bytes := List UInt8

namespace Octet

abbrev lineFeed : UInt8 := 0x0A

abbrev carriageReturn : UInt8 := 0x0D

abbrev blank : UInt8 := 0x20

/-- The number sign, which opens a comment line. -/
abbrev hash : UInt8 := 0x23

abbrev zero : UInt8 := 0x30

abbrev one : UInt8 := 0x31

/-- The mark of a bit that the listing leaves open. -/
abbrev question : UInt8 := 0x3F

end Octet

end Microcode
