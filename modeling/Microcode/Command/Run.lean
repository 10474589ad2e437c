import Microcode.Command.Host
import Microcode.Command.Options

namespace Microcode

/-!
The command: read a listing, convert it, and write the words.

Nothing is written before the whole listing has been converted, so a failure leaves
every output as it was.
-/

namespace Command

def banner : String :=
  "CCROS file converter 2012-04-07"

def usage : String :=
  String.join <| [
    "Convert a CCROS listing into packed 56-bit control-store words",
    "",
    "Options:",
    "  -v, --version          Print the banner",
    "  -i, --input FILE       Read the listing from a file",
    "  -o, --output FILE      Write the words to a file",
    "      --format FORMAT    One of vhdl, text and json (vhdl unless given)",
    "      --full-width       Write the end mark of each word too",
    "      --strict           Refuse fields with anything but their digits",
    "      --capacity N       The most words to take (4096 unless given)",
    "      --accept TAG       Accept a version tag besides the standard ones",
    "  -h, --help             Print this text"].map (· ++ "\n")

/-- The first tag that does not fill the version columns exactly. -/
def misfit? (tags : List String) : Option String :=
  tags.find? fun tag => (Utf8.encode tag).length != Column.versionWidth

variable {m : Type → Type} [Monad m] [Host m]

def readListing (input : Option String) : m (Except CommandFailure Source) :=
  match input with
  | none => return .ok (← Host.standardInput)
  | some path => do
      match ← Host.openFile path with
      | .error fault => return .error (.opening path fault)
      | .ok file => return .ok (← Host.readFile file)

def writeWords (output : Option String) (text : Bytes) : m (Except CommandFailure Unit) :=
  match output with
  | none => do
      Host.print text
      return .ok ()
  | some path => do
      match ← Host.createFile path with
      | .error fault => return .error (.creating path fault)
      | .ok file => return (← Host.writeFile file text).mapError .writing

/-- The words of a listing as they are to be written. -/
def rendered (options : Options) (source : Source) : Except CommandFailure Bytes :=
  match (Conversion.convert options.settings source).result with
  | .error failure => .error (.converting failure)
  | .ok listing =>
      .ok (Rendering.render options.outputFormat options.width listing.store.toList)

def convertListing (options : Options) : m (Except CommandFailure Unit) := do
  match misfit? options.accepted with
  | some tag => return .error (.tagWidth tag)
  | none =>
      match ← readListing options.input with
      | .error failure => return .error failure
      | .ok source =>
          match rendered options source with
          | .error failure => return .error failure
          | .ok text => writeWords options.output text

/-- Run the command.  The status tells a faulty command line from a failed
conversion. -/
def run (arguments : List String) : m UInt32 := do
  match Options.ofArguments arguments with
  | .error .help =>
      Host.print (Utf8.encode usage)
      return 0
  | .error (.fault fault) =>
      Host.complain (Utf8.encode s!"error: {fault.message}\n")
      return 2
  | .ok options =>
      if options.version then
        Host.print (Utf8.encode (banner ++ "\n"))
        return 0
      else
        match ← convertListing options with
        | .ok () => return 0
        | .error failure =>
            Host.complain (Utf8.encode failure.report)
            return 1

end Command

end Microcode
