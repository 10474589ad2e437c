import Microcode.Conversion.Event
import Microcode.Conversion.Failure
import Microcode.Conversion.Settings
import Microcode.Listing.Split
import Microcode.Word.Pack

namespace Microcode

/-!
The conversion of a whole listing.

Lines are taken in order, and the first one that cannot be taken decides the
outcome.  The log holds what was reported up to that point, whether the conversion
succeeds or not.
-/

/-- What can be read of a listing: some octets, and then its end or a fault. -/
structure Source where
  bytes : Bytes
  fault : Option String := none

/-- The lines that are read.  A fault leaves the last line unfinished, so what
stands after the last line feed is no line then. -/
def Source.lines (source : Source) : List Bytes :=
  match source.fault with
  | none => Split.lines source.bytes
  | some _ => Split.ended source.bytes

namespace Conversion

/-- The state after some lines. -/
structure Progress where
  store : Store
  tally : Tally := {}
  log : Array Event := #[]

/-- A failure, with what was reported before it. -/
structure Halt where
  failure : ConversionFailure
  log : Array Event

/-- The text of a line in a message: without any carriage returns at its end. -/
def echo (line : Bytes) : String :=
  Blank.dropTrailing (· == '\r') (Utf8.decode line)

def warnings (lineNumber : Nat) (record : Record) : List Event :=
  record.truncated.map (.truncated lineNumber)

/-- Take a record: report its truncated numerals, then store its word. -/
def takeRecord (progress : Progress) (lineNumber : Nat) (record : Record) :
    Except Halt Progress :=
  let log := progress.log ++ warnings lineNumber record
  match progress.store.push (Word.pack record) with
  | .error full => .error ⟨.capacity lineNumber full, log⟩
  | .ok store =>
      let tally := progress.tally
      .ok {
        store := store
        tally := { tally with lines := lineNumber, records := tally.records + 1 }
        log := log }

def step (settings : Settings) (progress : Progress) (line : Bytes) : Except Halt Progress :=
  let tally := progress.tally
  let lineNumber := tally.lines + 1
  match Line.classify settings.accepted settings.strictness line with
  | .error .format => .error ⟨.format lineNumber (echo line), progress.log⟩
  | .error (.field fault) => .error ⟨.field lineNumber fault, progress.log⟩
  | .ok .comment =>
      .ok { progress with
        tally := { tally with lines := lineNumber, comments := tally.comments + 1 } }
  | .ok (.unlisted tag) =>
      .ok { progress with
        tally := { tally with lines := lineNumber, unlisted := tally.unlisted + 1 }
        log := progress.log.push (.skipped lineNumber tag) }
  | .ok (.record record) => takeRecord progress lineNumber record

def start (settings : Settings) : Progress where
  store := .empty settings.capacity

/-- Take the lines in order, up to the first that cannot be taken. -/
def takeLines (settings : Settings) (lines : List Bytes) : Except Halt Progress :=
  lines.foldlM (step settings) (start settings)

/-- What a successful conversion yields. -/
structure Listing where
  store : Store
  tally : Tally
  deriving DecidableEq

structure Outcome where
  log : Array Event
  result : Except ConversionFailure Listing

/-- Convert a listing.  A fault in reading comes after the lines that were read, so
any failure of these takes precedence. -/
def convert (settings : Settings) (source : Source) : Outcome :=
  match takeLines settings source.lines with
  | .error halt => ⟨halt.log, .error halt.failure⟩
  | .ok progress =>
      match source.fault with
      | some cause => ⟨progress.log, .error (.reading cause)⟩
      | none =>
          let log := progress.log.push (.finished progress.tally)
          ⟨log, .ok ⟨progress.store, progress.tally⟩⟩

end Conversion

end Microcode
