import Microcode.Listing.Field

namespace Microcode

/-!
What a conversion reports along the way.
-/

/-- The number of lines, and of lines of each kind. -/
structure Tally where
  lines : Nat := 0
  records : Nat := 0
  comments : Nat := 0
  unlisted : Nat := 0
  deriving DecidableEq, Repr

inductive Event where
  /-- A record for a version that is not wanted was passed over. -/
  | skipped (lineNumber : Nat) (tag : String)
  /-- A numeral ended before its columns did. -/
  | truncated (lineNumber : Nat) (field : Field)
  /-- The last line has been converted. -/
  | finished (tally : Tally)
  deriving DecidableEq, Repr

namespace Event

inductive Level where
  | debug
  | warn
  | info
  deriving DecidableEq, Repr

def level : Event → Level
  | skipped _ _ => .debug
  | truncated _ _ => .warn
  | finished _ => .info

def message : Event → String
  | skipped _ _ => "skipping line with unlisted version tag"
  | truncated _ _ => "hex field is not fully numeric; value truncated"
  | finished _ => "conversion finished"

end Event

end Microcode
