import Microcode.Json
import Microcode.Listing.Line
import Microcode.Parity.Flag
import Microcode.Store

namespace Microcode

/-!
What a conversion can be told, and how it is stored.

Reading accepts more than writing produces: keys in any order and unknown ones,
structures written as arrays, and tags in any order and number.
-/

/-- Capacities are stored as 64-bit numbers. -/
abbrev capacityBound : Nat := 0x10000000000000000

@[ext]
structure Settings where
  capacity : Nat := Store.standardLimit
  strictness : Strictness := .lenient
  accepted : TagSet := .standard
  capacity_lt : capacity < capacityBound := by decide
  deriving DecidableEq

namespace Strictness

def toJson : Strictness → Json
  | lenient => .string "Lenient"
  | strict => .string "Strict"

def ofName? : String → Option Strictness
  | "Lenient" => some lenient
  | "Strict" => some strict
  | _ => none

def ofJson? (json : Json) : Option Strictness :=
  json.choice?.bind ofName?

end Strictness

namespace TagSet

def toJson (set : TagSet) : Json :=
  .object [("tags", .array (set.tags.map .string))]

def ofJson? (json : Json) : Option TagSet :=
  match json.parts? ["tags"] with
  | some [tags] => tags.strings?.map ofList
  | _ => none

end TagSet

namespace Settings

def toJson (settings : Settings) : Json :=
  .object [("capacity", .ofNat settings.capacity),
    ("strictness", settings.strictness.toJson),
    ("accepted_versions", settings.accepted.toJson)]

def ofParts? (capacity strictness accepted : Json) : Option Settings := do
  let capacity ← capacity.natBelow? capacityBound
  let strictness ← Strictness.ofJson? strictness
  let accepted ← TagSet.ofJson? accepted
  if bound : capacity < capacityBound then
    some { capacity, strictness, accepted, capacity_lt := bound }
  else none

def ofJson? (json : Json) : Option Settings :=
  match json.parts? ["capacity", "strictness", "accepted_versions"] with
  | some [capacity, strictness, accepted] => ofParts? capacity strictness accepted
  | _ => none

end Settings

namespace Field

def ofJson? (json : Json) : Option Field :=
  json.choice?.bind ofKey?

end Field

namespace ParityFlags

def ofJson? (json : Json) : Option ParityFlags :=
  json.string?.bind ofText?

end ParityFlags

end Microcode
