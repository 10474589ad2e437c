import Microcode.Conversion.Failure

namespace Microcode

/-!
Why a command fails, and how it says so.
-/

/-- Why a file cannot be opened, read, created or written. -/
inductive FileFault where
  | notFound
  | isFolder
  | notFolder
  | other (text : String)
  deriving DecidableEq, Repr

def FileFault.message : FileFault → String
  | notFound => "No such file or directory (os error 2)"
  | isFolder => "Is a directory (os error 21)"
  | notFolder => "Not a directory (os error 20)"
  | other text => text

inductive CommandFailure where
  /-- A tag does not have the width of the version columns. -/
  | tagWidth (tag : String)
  | opening (path : String) (fault : FileFault)
  | converting (failure : ConversionFailure)
  | creating (path : String) (fault : FileFault)
  | writing (fault : FileFault)
  deriving DecidableEq, Repr

namespace CommandFailure

def message : CommandFailure → String
  | tagWidth tag => s!"version tag must be 3 characters: {Quoted.text tag}"
  | opening path _ => s!"opening {path}"
  | converting failure => failure.message
  | creating path _ => s!"creating {path}"
  | writing fault => fault.message

def causes : CommandFailure → List String
  | tagWidth _ => []
  | opening _ fault => [fault.message]
  | converting failure => failure.causes
  | creating _ fault => [fault.message]
  | writing _ => []

/-- Several causes are numbered, from the nearest to the first. -/
def causeLines : List String → List String
  | [] => []
  | [cause] => ["", "Caused by:", s!"    {cause}"]
  | causes =>
      "" :: "Caused by:"
        :: causes.zipIdx.map fun (cause, index) => s!"    {index}: {cause}"

/-- The message and its causes, each on a line. -/
def report (failure : CommandFailure) : String :=
  String.join ((s!"Error: {failure.message}" :: causeLines failure.causes).map (· ++ "\n"))

end CommandFailure

end Microcode
