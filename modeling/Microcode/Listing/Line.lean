import Microcode.Listing.Record
import Microcode.Listing.TagSet

namespace Microcode

/-!
What a single line of a listing is.
-/

/-- How much of a record line is checked. -/
inductive Strictness where
  /-- Numerals may end early and bit groups may hold anything. -/
  | lenient
  /-- Every field has to consist of the digits of its kind. -/
  | strict
  deriving DecidableEq, Repr

inductive Line where
  | comment
  /-- A record for a version that is not wanted. -/
  | unlisted (tag : String)
  | record (record : Record)
  deriving DecidableEq

namespace Line

/-- Drop a single carriage return at the end of a line. -/
def dropReturn (line : Bytes) : Bytes :=
  if line.getLast? = some Octet.carriageReturn then line.dropLast else line

/-- Read a line.  The version decides before the fields are looked at, so a record
for another version may hold anything in them. -/
def classify (accepted : TagSet) (strictness : Strictness) (raw : Bytes) :
    Except LineFault Line :=
  let octets := dropReturn raw
  if octets.head? = some Octet.hash then .ok .comment
  else if blanks : ∀ column ∈ Column.separators, octets[column]? = some Octet.blank then
    let found : Record := ⟨octets, blanks⟩
    if !accepted.contains found.version then .ok (.unlisted (Utf8.decode found.version))
    else
      match strictness with
      | .lenient => .ok (.record found)
      | .strict =>
          match found.fault? with
          | some fault => .error (.field fault)
          | none => .ok (.record found)
  else .error .format

end Line

end Microcode
