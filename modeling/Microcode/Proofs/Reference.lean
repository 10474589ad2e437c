import Microcode.Conversion.Run
import Microcode.Proofs.Lines

namespace Microcode

/-!
What a conversion has to amount to, stated for whole lists of lines.

The counts, the words and the log are functions of the lines taken so far, and whether
a line stops the conversion depends on it and on the lines before it.  A step of the
conversion follows this description, so its state never has to be looked at again.
-/

/-- A tally with one more line of a kind. -/
def Tally.count (tally : Tally) : Line → Tally
  | .comment => { tally with lines := tally.lines + 1, comments := tally.comments + 1 }
  | .unlisted _ => { tally with lines := tally.lines + 1, unlisted := tally.unlisted + 1 }
  | .record _ => { tally with lines := tally.lines + 1, records := tally.records + 1 }

namespace Conversion

variable (settings : Settings)

/-- What a line is under the settings. -/
def reading (line : Bytes) : Except LineFault Line :=
  Line.classify settings.accepted settings.strictness line

def record? (line : Bytes) : Option Record :=
  match reading settings line with
  | .ok (.record record) => some record
  | _ => none

def isComment (line : Bytes) : Bool :=
  match reading settings line with
  | .ok .comment => true
  | _ => false

def isUnlisted (line : Bytes) : Bool :=
  match reading settings line with
  | .ok (.unlisted _) => true
  | _ => false

/-- The records among some lines, in their order. -/
def records (lines : List Bytes) : List Record :=
  lines.filterMap (record? settings)

/-- The lines counted by their kinds. -/
def tallyOf (lines : List Bytes) : Tally where
  lines := lines.length
  records := (records settings lines).length
  comments := lines.countP (isComment settings)
  unlisted := lines.countP (isUnlisted settings)

/-- What is reported for a line, whether or not it can be taken. -/
def lineEvents (lineNumber : Nat) (line : Bytes) : List Event :=
  match reading settings line with
  | .ok (.unlisted tag) => [.skipped lineNumber tag]
  | .ok (.record record) => warnings lineNumber record
  | _ => []

def events (lines : List Bytes) : List Event :=
  lines.zipIdx.flatMap fun (line, index) => lineEvents settings (index + 1) line

/-- Why a line cannot be taken after some others: it is no line of a listing, or a
record for which no room is left. -/
inductive Stops (earlier : List Bytes) (line : Bytes) : ConversionFailure → Prop where
  | format (text : String) (fault : reading settings line = .error .format)
      (trimmed : Blank.TrimmedOf (· == '\r') (Utf8.decode line) text) :
      Stops earlier line (.format (earlier.length + 1) text)
  | field (cause : FieldFault) (fault : reading settings line = .error (.field cause)) :
      Stops earlier line (.field (earlier.length + 1) cause)
  | capacity (record : Record) (found : reading settings line = .ok (.record record))
      (full : settings.capacity ≤ (records settings earlier).length) :
      Stops earlier line (.capacity (earlier.length + 1) ⟨settings.capacity⟩)

/-- What the state of a conversion is once some lines have been taken. -/
structure Reached (taken : List Bytes) (progress : Progress) : Prop where
  limit : progress.store.limit = settings.capacity
  words : progress.store.toList = (records settings taken).map Word.pack
  tally : progress.tally = tallyOf settings taken
  log : progress.log.toList = events settings taken
  /-- Every line taken is of just one kind. -/
  total : progress.tally.records + progress.tally.comments + progress.tally.unlisted =
    progress.tally.lines

variable {settings}

theorem record?_eq_some_iff {line : Bytes} {record : Record} :
    record? settings line = some record ↔ reading settings line = .ok (.record record) := by
  unfold record?
  split <;> simp_all

theorem reached_start : Reached settings [] (start settings) where
  limit := rfl
  words := rfl
  tally := rfl
  log := rfl
  total := rfl

/-! ## One more line -/

theorem records_concat (taken : List Bytes) (line : Bytes) :
    records settings (taken ++ [line]) =
      records settings taken ++ (record? settings line).toList := by
  rw [records, List.filterMap_append, records]
  cases found : record? settings line with
  | none => simp [found]
  | some record => simp [found]

theorem events_concat (taken : List Bytes) (line : Bytes) :
    events settings (taken ++ [line]) =
      events settings taken ++ lineEvents settings (taken.length + 1) line := by
  rw [events, List.zipIdx_append, List.flatMap_append, events]
  simp

theorem tallyOf_concat (taken : List Bytes) {line : Bytes} {kind : Line}
    (found : reading settings line = .ok kind) :
    tallyOf settings (taken ++ [line]) = (tallyOf settings taken).count kind := by
  cases kind <;>
    simp [tallyOf, Tally.count, records_concat, record?, isComment, isUnlisted, found]

namespace Reached

variable {taken : List Bytes} {progress : Progress} {line : Bytes}

theorem size_eq (reached : Reached settings taken progress) :
    progress.store.words.size = (records settings taken).length := by
  have lengths := congrArg List.length reached.words
  rwa [List.length_map, Store.toList, Array.length_toList] at lengths

theorem lines_eq (reached : Reached settings taken progress) :
    progress.tally.lines = taken.length := by
  rw [reached.tally, tallyOf]

/-- The description holds of a state to which one line has been added. -/
theorem extend (reached : Reached settings taken progress) {kind : Line} {next : Progress}
    (found : reading settings line = .ok kind)
    (limit : next.store.limit = progress.store.limit)
    (words : next.store.toList =
      progress.store.toList ++ (record? settings line).toList.map Word.pack)
    (tally : next.tally = progress.tally.count kind)
    (log : next.log.toList =
      progress.log.toList ++ lineEvents settings (taken.length + 1) line) :
    Reached settings (taken ++ [line]) next where
  limit := limit.trans reached.limit
  words := by rw [words, reached.words, records_concat, List.map_append]
  tally := by rw [tally, reached.tally, tallyOf_concat taken found]
  log := by rw [log, reached.log, events_concat]
  total := by
    have total := reached.total
    rw [tally]
    cases kind <;> dsimp only [Tally.count] <;> omega

/-- A line that nothing stops is taken, and the description holds of it as well. -/
theorem step_of_passable (reached : Reached settings taken progress)
    (passable : ∀ failure, ¬ Stops settings taken line failure) :
    ∃ next, step settings progress line = .ok next ∧
      Reached settings (taken ++ [line]) next := by
  have classified : Line.classify settings.accepted settings.strictness line =
      reading settings line := rfl
  have number := reached.lines_eq
  cases found : reading settings line with
  | error fault =>
      cases fault with
      | format => exact absurd (.format _ found (Blank.trimmedOf_iff.mpr rfl)) (passable _)
      | field cause => exact absurd (.field cause found) (passable _)
  | ok kind =>
      cases kind with
      | comment =>
          rw [step, classified, found]
          refine ⟨_, rfl, reached.extend found rfl ?_ rfl ?_⟩
          · simp [record?, found]
          · simp [lineEvents, found]
      | unlisted tag =>
          rw [step, classified, found]
          refine ⟨_, rfl, reached.extend found rfl ?_ rfl ?_⟩
          · simp [record?, found]
          · simp [lineEvents, found, number]
      | record record =>
          have fits : progress.store.words.size < progress.store.limit := by
            rw [reached.size_eq, reached.limit]
            exact Nat.lt_of_not_le fun full => passable _ (.capacity record found full)
          rw [step, classified, found]
          dsimp only
          rw [takeRecord, Store.push_of_room _ _ fits]
          refine ⟨_, rfl, reached.extend found rfl ?_ rfl ?_⟩
          · simp [record?, found, Store.toList_append]
          · simp [lineEvents, found, number]

/-- A line that is stopped ends the conversion, and its own reports come last. -/
theorem step_of_stops (reached : Reached settings taken progress) {failure : ConversionFailure}
    (stops : Stops settings taken line failure) :
    ∃ log, step settings progress line = .error ⟨failure, log⟩ ∧
      log.toList = events settings (taken ++ [line]) := by
  have number := reached.lines_eq
  cases stops with
  | format text fault trimmed =>
      refine ⟨progress.log, ?_, ?_⟩
      · rw [reading] at fault
        rw [step, fault, number, echo, Blank.trimmedOf_iff.mp trimmed]
      · rw [events_concat, lineEvents, fault, reached.log, List.append_nil]
  | field cause fault =>
      refine ⟨progress.log, ?_, ?_⟩
      · rw [reading] at fault
        rw [step, fault, number]
      · rw [events_concat, lineEvents, fault, reached.log, List.append_nil]
  | capacity record found full =>
      have crowded : progress.store.limit ≤ progress.store.words.size := by
        rw [reached.size_eq, reached.limit]
        exact full
      have refused : progress.store.push (Word.pack record) = .error ⟨settings.capacity⟩ := by
        rw [Store.push_of_full _ _ crowded, reached.limit]
      refine ⟨progress.log ++ warnings (taken.length + 1) record, ?_, ?_⟩
      · rw [reading] at found
        rw [step, found, number]
        dsimp only
        rw [takeRecord, refused]
      · rw [events_concat, lineEvents, found]
        simp [reached.log]

end Reached

end Conversion

end Microcode
