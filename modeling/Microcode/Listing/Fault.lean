import Microcode.Listing.Field
import Microcode.Numeral.Fault

namespace Microcode

/-!
Why a line cannot be taken as a record.
-/

/-- A field with text that its kind does not admit. -/
structure FieldFault where
  field : Field
  cause : DigitFault
  deriving DecidableEq, Repr

def FieldFault.message (fault : FieldFault) : String :=
  s!"field {fault.field.name}: {fault.cause.message}"

inductive LineFault where
  /-- A separator column does not hold a blank. -/
  | format
  | field (fault : FieldFault)
  deriving DecidableEq, Repr

def LineFault.message : LineFault → String
  | format => "Line format error"
  | field fault => fault.message

end Microcode
