import Microcode.Proofs.GuardedWord
import Microcode.Proofs.Resumption
import Microcode.Rendering.Format

namespace Microcode
namespace Guarded

/-!
Conversions under guard.

A guarded conversion goes along with the plain one line by line.  It reaches the columns of a
line and the bits of a word through guards only, and so does a rendering of the words; where a
guard refuses, nothing comes out of the whole run.  A single step is never refused, since what it
takes a word from is a record.  So no run is.
-/

/-! ## Conversions -/

def takeRecord (progress : Conversion.Progress) (lineNumber : Nat) (octets : Bytes) :
    Option (Except Conversion.Halt Conversion.Progress) := do
  let short ← truncated octets Field.all
  let word ← pack octets
  let log := progress.log ++ short.map (Event.truncated lineNumber)
  match progress.store.push word with
  | .error full => return .error ⟨.capacity lineNumber full, log⟩
  | .ok store =>
      let tally := progress.tally
      return .ok {
        store := store
        tally := { tally with lines := lineNumber, records := tally.records + 1 }
        log := log }

def step (settings : Settings) (progress : Conversion.Progress) (line : Bytes) :
    Option (Except Conversion.Halt Conversion.Progress) := do
  let tally := progress.tally
  let lineNumber := tally.lines + 1
  match ← classify settings.accepted settings.strictness line with
  | .error .format =>
      return .error ⟨.format lineNumber (Conversion.echo line), progress.log⟩
  | .error (.field fault) => return .error ⟨.field lineNumber fault, progress.log⟩
  | .ok .comment =>
      return .ok { progress with
        tally := { tally with lines := lineNumber, comments := tally.comments + 1 } }
  | .ok (.unlisted tag) =>
      return .ok { progress with
        tally := { tally with lines := lineNumber, unlisted := tally.unlisted + 1 }
        log := progress.log.push (.skipped lineNumber tag) }
  | .ok (.record record) => takeRecord progress lineNumber record.octets

def takeLines (settings : Settings) :
    List Bytes → Conversion.Progress → Option (Except Conversion.Halt Conversion.Progress)
  | [], progress => some (.ok progress)
  | line :: lines, progress => do
      match ← step settings progress line with
      | .error halt => return .error halt
      | .ok next => takeLines settings lines next

def convert (settings : Settings) (source : Source) : Option Conversion.Outcome := do
  match ← takeLines settings source.lines (Conversion.start settings) with
  | .error halt => return ⟨halt.log, .error halt.failure⟩
  | .ok progress =>
      match source.fault with
      | some cause => return ⟨progress.log, .error (.reading cause)⟩
      | none =>
          let log := progress.log.push (.finished progress.tally)
          return ⟨log, .ok ⟨progress.store, progress.tally⟩⟩

theorem takeRecord_eq (progress : Conversion.Progress) (lineNumber : Nat) (record : Record) :
    takeRecord progress lineNumber record.octets =
      some (Conversion.takeRecord progress lineNumber record) := by
  have short : truncated record.octets Field.all = some record.truncated :=
    truncated_record record Field.all
  simp only [takeRecord, short, pack_record, Option.bind_eq_bind, Option.bind_some]
  rw [Conversion.takeRecord]
  cases progress.store.push (Word.pack record) <;> rfl

theorem step_eq (settings : Settings) (progress : Conversion.Progress) (line : Bytes) :
    step settings progress line = some (Conversion.step settings progress line) := by
  rw [step, Conversion.step, classify_eq]
  cases Line.classify settings.accepted settings.strictness line with
  | error fault => cases fault <;> rfl
  | ok kind =>
      cases kind with
      | comment => rfl
      | unlisted tag => rfl
      | record record => exact takeRecord_eq progress _ record

theorem takeLines_eq (settings : Settings) (lines : List Bytes)
    (progress : Conversion.Progress) :
    takeLines settings lines progress = some (Conversion.resume settings progress lines) := by
  induction lines generalizing progress with
  | nil => rfl
  | cons line lines ih =>
      rw [takeLines, step_eq, Conversion.resume_cons]
      cases Conversion.step settings progress line with
      | error halt => rfl
      | ok next => exact ih next

theorem convert_eq (settings : Settings) (source : Source) :
    convert settings source = some (Conversion.convert settings source) := by
  have taken : takeLines settings source.lines (Conversion.start settings) =
      some (Conversion.takeLines settings source.lines) :=
    takeLines_eq settings source.lines (Conversion.start settings)
  rw [convert, Conversion.convert, taken]
  cases Conversion.takeLines settings source.lines with
  | error halt => rfl
  | ok progress => cases source.fault <;> rfl

/-! ## Renderings -/

def bitText (width : Width) (word : Word) : Option Bytes :=
  match width with
  | .meaningful => (slice word.bits.toList 0 meaningfulBits).map Binary.digits
  | .full => (slice word.bits.toList 0 wordBits).map Binary.digits

/-- The row of an address and its bits. -/
def layOut (format : Format) (address : BitVec addressBits) (bits : Bytes) : Bytes :=
  match format with
  | .vhdl =>
      Utf8.encode "16#" ++ Hex.address .lower address ++ Utf8.encode "# => \"" ++ bits
        ++ Utf8.encode "\",\r\n"
  | .text => Hex.address .upper address ++ [Octet.blank] ++ bits ++ [Octet.lineFeed]
  | .json =>
      Utf8.encode "  \x7b\n    \"address\": \"" ++ Hex.address .upper address
        ++ Utf8.encode "\",\n    \"bits\": \"" ++ bits ++ Utf8.encode "\"\n  \x7d"

def row (format : Format) (width : Width) (word : Word) : Option Bytes :=
  (bitText width word).map (layOut format word.address)

/-- What stands around and between rows. -/
def assemble : Format → List Bytes → List Bytes
  | .json, [] => [Utf8.encode "[]", [Octet.lineFeed]]
  | .json, first :: rest =>
      (Utf8.encode "[\n" ++ first) :: rest.map (Utf8.encode ",\n" ++ ·)
        ++ [Utf8.encode "\n]", [Octet.lineFeed]]
  | _, rows => rows

def pieces (format : Format) (width : Width) (words : List Word) : Option (List Bytes) :=
  (words.mapM (row format width)).map (assemble format)

theorem bitText_eq (width : Width) (word : Word) :
    bitText width word = some (Rendering.bitText width word) := by
  have length : word.bits.toList.length = wordBits := Vector.length_toList
  cases width with
  | meaningful =>
      have inside : meaningfulBits ≤ word.bits.toList.length := by
        rw [length]
        decide
      rw [bitText, slice_eq_some (Nat.zero_le _) inside]
      rfl
  | full =>
      rw [bitText, slice_eq_some (Nat.zero_le _) (Nat.le_of_eq length.symm), Nat.sub_zero,
        List.drop_zero, List.take_of_length_le (Nat.le_of_eq length)]
      rfl

theorem row_eq (format : Format) (width : Width) (word : Word) :
    row format width word =
      some (layOut format word.address (Rendering.bitText width word)) := by
  rw [row, bitText_eq, Option.map_some]

theorem pieces_eq (format : Format) (width : Width) (words : List Word) :
    pieces format width words = some (Rendering.pieces format width words) := by
  have rows : words.mapM (row format width) =
      some (words.map fun word => layOut format word.address (Rendering.bitText width word)) := by
    rw [funext (row_eq format width)]
    exact List.mapM_pure
  rw [pieces, rows, Option.map_some]
  apply congrArg some
  cases format with
  | vhdl => rfl
  | text => rfl
  | json =>
      cases words with
      | nil => rfl
      | cons first rest =>
          rw [List.map_cons, assemble, List.map_map]
          rfl

/-! ## Whole runs -/

/-- A conversion, and the rendering of its words if it succeeds. -/
def run (settings : Settings) (format : Format) (width : Width) (source : Source) :
    Option (Conversion.Outcome × Option (List Bytes)) := do
  let outcome ← convert settings source
  match outcome.result with
  | .error _ => return (outcome, none)
  | .ok listing => return (outcome, some (← pieces format width listing.store.toList))

theorem run_eq (settings : Settings) (format : Format) (width : Width) (source : Source) :
    run settings format width source =
      some (Conversion.convert settings source,
        (Conversion.convert settings source).result.toOption.map fun listing =>
          Rendering.pieces format width listing.store.toList) := by
  rw [run, convert_eq]
  simp only [Option.bind_eq_bind, Option.bind_some]
  cases (Conversion.convert settings source).result with
  | error failure => rfl
  | ok listing =>
      simp only [pieces_eq]
      rfl

/-- No guard refuses anything that is done with a record, and its fields write nothing behind the
bits that carry meaning. -/
structure Unrefused (record : Record) : Prop where
  text_eq : ∀ field, text record.octets field = some (record.text field)
  truncated_eq : truncated record.octets Field.all = some record.truncated
  fault_eq : fault record.octets Field.all = some record.fault?
  comment_eq : comment record.octets = some record.comment
  contents_le : ∀ slot ∈ Slot.all,
    slot.start + (contents slot.field.kind (record.text slot.field)).length ≤ meaningfulBits
  packRegular_eq : packRegular record.octets = some (Word.packRegular record)
  pack_eq : pack record.octets = some (Word.pack record)

theorem unrefused (record : Record) : Unrefused record where
  text_eq := text_record record
  truncated_eq := truncated_record record Field.all
  fault_eq := fault_record record Field.all
  comment_eq := comment_record record
  contents_le _ member := (length_contents record member).symm ▸ Slot.start_add_length_le member
  packRegular_eq := packRegular_record record
  pack_eq := pack_record record

/-- The guards refuse exactly what lies outside a line or a word, and they never have to.  A line
that is neither a comment nor without one of its separators holds all fields.  So what is read
from it, and the word that is packed from it, is the same under guard as without, and so are
whole conversions and the renderings of their words, for any settings and any source. -/
theorem accesses_stay_inside :
    (∀ octets field, text octets field = none ↔ octets.length < field.column + field.width) ∧
    (∀ limit bits position value, write limit bits position value = none ↔
      ¬ (position < limit ∧ position < wordBits)) ∧
    (∀ bits position, fetch bits position = none ↔ ¬ position < wordBits) ∧
    (∀ accepted strictness line,
      Line.classify accepted strictness line = .ok .comment ∨
        Line.classify accepted strictness line = .error .format ∨
        71 ≤ (Line.dropReturn line).length) ∧
    (∀ accepted strictness line,
      classify accepted strictness line = some (Line.classify accepted strictness line)) ∧
    (∀ record, Unrefused record) ∧
    (∀ format width words,
      pieces format width words = some (Rendering.pieces format width words)) ∧
    ∀ settings format width source,
      run settings format width source =
        some (Conversion.convert settings source,
          (Conversion.convert settings source).result.toOption.map fun listing =>
            Rendering.pieces format width listing.store.toList) :=
  ⟨fun _ _ => text_eq_none_iff, fun _ _ _ _ => write_eq_none_iff, fun _ _ => fetch_eq_none_iff,
    comment_or_format_or_long, classify_eq, unrefused, pieces_eq, run_eq⟩

/-- Without its last field a line yields no word under guard, and a bit group is refused where its
last bits would come to stand behind the word. -/
theorem accesses_stay_inside_openLine :
    71 ≤ (Line.dropReturn Word.openLine).length ∧
    pack Word.openRecord.octets = some (Word.pack Word.openRecord) ∧
    text (Word.openRecord.octets.take 69) .pk = none ∧
    packRegular (Word.openRecord.octets.take 69) = none ∧
    fill Word.openRecord.octets (.replicate wordBits false) ⟨.ch, 52, 4⟩ = none := by
  rcases accesses_stay_inside with ⟨outside, -, -, long, -, records, -⟩
  have cut : (Word.openRecord.octets.take 69).length < Field.pk.column + Field.pk.width := by
    rw [List.length_take]
    exact Nat.lt_of_le_of_lt (Nat.min_le_left _ _) (by decide)
  have found : Line.classify .standard .lenient Word.openLine =
      .ok (.record Word.openRecord) := by
    apply Line.classify_eq_record_iff.mpr
    exact ⟨rfl, by decide, fun impossible => nomatch impossible⟩
  refine ⟨?_, (records Word.openRecord).pack_eq, (outside _ .pk).mpr cut, ?_, ?_⟩
  · rcases long .standard .lenient Word.openLine with comment | format | long
    · cases found.symm.trans comment
    · cases found.symm.trans format
    · exact long
  · decide +kernel
  · decide +kernel

end Guarded
end Microcode
