import Microcode.Listing.Fault
import Microcode.Store

namespace Microcode

/-!
Why a conversion stops.
-/

inductive ConversionFailure where
  /-- A line is neither a comment nor a record.  The text is that of the line. -/
  | format (lineNumber : Nat) (line : String)
  | field (lineNumber : Nat) (fault : FieldFault)
  | capacity (lineNumber : Nat) (full : StoreFull)
  /-- The listing could not be read to its end. -/
  | reading (cause : String)
  deriving DecidableEq, Repr

namespace ConversionFailure

def message : ConversionFailure → String
  | format lineNumber line => s!"Line format error on line {lineNumber}:\n{line}"
  | field lineNumber fault => s!"line {lineNumber}: {fault.message}"
  | capacity lineNumber full => s!"line {lineNumber}: {full.message}"
  | reading cause => s!"failed to read input: {cause}"

/-- What led to the failure, from the nearest cause to the first. -/
def causes : ConversionFailure → List String
  | format _ _ => []
  | field _ fault => [fault.message, fault.cause.message]
  | capacity _ full => [full.message]
  | reading cause => [cause]

end ConversionFailure

end Microcode
