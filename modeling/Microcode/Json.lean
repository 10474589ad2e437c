namespace Microcode

/-!
JSON values, as settings are stored in them.
-/

inductive Json where
  | null
  | bool (value : Bool)
  /-- A number as it is written: its digits, and how many of them follow the point. -/
  | number (digits : Int) (places : Nat)
  | string (text : String)
  | array (items : List Json)
  | object (members : List (String × Json))
  deriving Inhabited

namespace Json

def ofNat (value : Nat) : Json :=
  number value 0

/-- A whole number below a bound.  A number with a point is never whole. -/
def natBelow? (bound : Nat) : Json → Option Nat
  | number (.ofNat value) 0 => if value < bound then some value else none
  | _ => none

def string? : Json → Option String
  | string text => some text
  | _ => none

def strings? : Json → Option (List String)
  | array items => items.mapM string?
  | _ => none

/-- A choice among names, written as the bare name or as the only key of an object,
with null for its contents. -/
def choice? : Json → Option String
  | string name => some name
  | object [(name, null)] => some name
  | _ => none

/-- The value of a key.  A key that is repeated has none. -/
def member? (members : List (String × Json)) (key : String) : Option Json :=
  match members.filter (·.1 = key) with
  | [(_, value)] => some value
  | _ => none

/-- The parts of a structure, written as an object with at least the given keys, each of them
once, or as an array with one item for each. -/
def parts? (keys : List String) : Json → Option (List Json)
  | object members => keys.mapM (member? members)
  | array items => if items.length = keys.length then some items else none
  | _ => none

end Json

end Microcode
