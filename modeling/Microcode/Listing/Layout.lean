import Microcode.Listing.Field
import Microcode.Text.Octets

namespace Microcode

/-!
How a record line is laid out.
-/

namespace Layout

/-- The blanks before a field.  Only the next address stands apart. -/
def gap : Field → Nat
  | .cn => 2
  | _ => 1

/-- A line with the given texts in its fields, and a tail behind the last blank. -/
def line (texts : Field → Bytes) (tail : Bytes) : Bytes :=
  Field.all.flatMap (fun field => List.replicate (gap field) Octet.blank ++ texts field)
    ++ Octet.blank :: tail

end Layout

end Microcode
