import Microcode.Proofs.Boundaries
import Microcode.Proofs.Resumption

namespace Microcode

/-!
Conversions of listings that are put together.

What a conversion does after some state is what it does from the start, with the state in
front of it: words and events are appended, counts are added, and lines are numbered from
the state on.  So the conversion of two listings, one behind the other, is that of the
first and then that of the second with the room that the first has left.
-/

namespace Tally

/-- The counts of two listings, one behind the other. -/
def add (first second : Tally) : Tally where
  lines := first.lines + second.lines
  records := first.records + second.records
  comments := first.comments + second.comments
  unlisted := first.unlisted + second.unlisted

end Tally

/-- An event of a listing that stands behind another one. -/
def Event.after (first : Tally) : Event → Event
  | skipped lineNumber tag => .skipped (first.lines + lineNumber) tag
  | truncated lineNumber field => .truncated (first.lines + lineNumber) field
  | finished tally => .finished (first.add tally)

/-- A failure of a listing that stands behind another one.  The limit is that of the store
for both. -/
def ConversionFailure.after (first : Tally) (limit : Nat) :
    ConversionFailure → ConversionFailure
  | format lineNumber line => .format (first.lines + lineNumber) line
  | field lineNumber fault => .field (first.lines + lineNumber) fault
  | capacity lineNumber _ => .capacity (first.lines + lineNumber) ⟨limit⟩
  | reading cause => .reading cause

namespace Store

/-- The words of two stores.  The limit leaves as much room as there is in the second. -/
def followedBy (first second : Store) : Store where
  limit := first.words.size + second.limit
  words := first.words ++ second.words
  size_le_limit := by
    rw [Array.size_append]
    exact Nat.add_le_add_left second.size_le_limit _

theorem toList_followedBy (first second : Store) :
    (first.followedBy second).toList = first.toList ++ second.toList :=
  Array.toList_append

theorem followedBy_empty {store : Store} {limit : Nat}
    (room : store.words.size + limit = store.limit) : store.followedBy (.empty limit) = store := by
  rcases store with ⟨whole, words, fits⟩
  change words.size + limit = whole at room
  subst room
  simp [followedBy, empty]

theorem push_followedBy (first second : Store) (word : Word) :
    (first.followedBy second).push word =
      match second.push word with
      | .ok next => .ok (first.followedBy next)
      | .error _ => .error ⟨first.words.size + second.limit⟩ := by
  by_cases room : second.words.size < second.limit
  · have wider : (first.followedBy second).words.size < (first.followedBy second).limit := by
      simp only [followedBy, Array.size_append]
      omega
    rw [push_of_room _ _ room, push_of_room _ _ wider]
    simp [followedBy, append]
  · have full := Nat.le_of_not_lt room
    have crowded : (first.followedBy second).limit ≤ (first.followedBy second).words.size := by
      simp only [followedBy, Array.size_append]
      omega
    rw [push_of_full _ _ full, push_of_full _ _ crowded]
    rfl

end Store

namespace Conversion

/-- The state after two listings, one behind the other. -/
def Progress.followedBy (first second : Progress) : Progress where
  store := first.store.followedBy second.store
  tally := first.tally.add second.tally
  log := first.log ++ second.log.map (.after first.tally)

def Halt.after (first : Progress) (limit : Nat) (halt : Halt) : Halt where
  failure := halt.failure.after first.tally limit
  log := first.log ++ halt.log.map (.after first.tally)

/-- What comes of a listing that stands behind another one. -/
def continued (first : Progress) (limit : Nat) : Except Halt Progress → Except Halt Progress
  | .ok second => .ok (first.followedBy second)
  | .error halt => .error (halt.after first limit)

variable {settings : Settings} {first second : Progress} {limit : Nat}

theorem warnings_after (tally : Tally) (lineNumber : Nat) (record : Record) :
    warnings (tally.lines + lineNumber) record =
      (warnings lineNumber record).map (.after tally) := by
  simp [warnings, Event.after]

theorem takeRecord_followedBy (room : first.store.words.size + second.store.limit = limit)
    (lineNumber : Nat) (record : Record) :
    takeRecord (first.followedBy second) (first.tally.lines + lineNumber) record =
      continued first limit (takeRecord second lineNumber record) := by
  have pushed := Store.push_followedBy first.store second.store (Word.pack record)
  have log : (first.followedBy second).log ++ warnings (first.tally.lines + lineNumber) record =
      first.log ++ (second.log ++ warnings lineNumber record).map (.after first.tally) := by
    apply Array.toList_inj.mp
    rw [warnings_after]
    simp [Progress.followedBy]
  change (first.followedBy second).store.push (Word.pack record) = _ at pushed
  rw [takeRecord, takeRecord, pushed, log]
  cases second.store.push (Word.pack record) with
  | error full =>
      dsimp only
      rw [room]
      rfl
  | ok store => rfl

/-- A step after two states is a step after the second, with the first in front. -/
theorem step_followedBy (room : first.store.words.size + second.store.limit = limit)
    (line : Bytes) :
    step settings (first.followedBy second) line =
      continued first limit (step settings second line) := by
  have number : (first.followedBy second).tally.lines + 1 =
      first.tally.lines + (second.tally.lines + 1) := rfl
  rw [step, step, classify_eq_reading, number]
  cases found : reading settings line with
  | error fault => cases fault <;> rfl
  | ok kind =>
      cases kind with
      | comment => rfl
      | unlisted tag =>
          have log : (first.followedBy second).log.push
                (.skipped (first.tally.lines + (second.tally.lines + 1)) tag) =
              first.log ++ (second.log.push (.skipped (second.tally.lines + 1) tag)).map
                (.after first.tally) := by
            simp [Progress.followedBy, Event.after]
          dsimp only
          rw [log]
          rfl
      | record record => exact takeRecord_followedBy room _ record

theorem resume_followedBy (room : first.store.words.size + second.store.limit = limit)
    (lines : List Bytes) :
    resume settings (first.followedBy second) lines =
      continued first limit (resume settings second lines) := by
  -- The first state stays in front; only the second one moves, within the same limit.
  induction lines generalizing second with
  | nil => rfl
  | cons line lines ih =>
      rw [resume_cons, resume_cons, step_followedBy room]
      cases stepped : step settings second line with
      | error halt => rfl
      | ok next =>
          rcases step_eq_ok stepped with ⟨-, -, -, kept⟩
          exact ih (kept ▸ room)

end Conversion

/-- The settings with room for fewer words. -/
def Settings.without (settings : Settings) (taken : Nat) : Settings :=
  { settings with
    capacity := settings.capacity - taken
    capacity_lt := Nat.lt_of_le_of_lt (Nat.sub_le _ _) settings.capacity_lt }

namespace Conversion

variable {settings : Settings}

/-- A state is itself in front of a start with the room that it leaves. -/
theorem followedBy_start {progress : Progress} (limit : progress.store.limit = settings.capacity)
    (room : progress.store.words.size + (settings.capacity - progress.store.words.size) =
      settings.capacity) :
    progress.followedBy (start (settings.without progress.store.words.size)) = progress := by
  have store : progress.store.followedBy
      (.empty (settings.capacity - progress.store.words.size)) = progress.store :=
    Store.followedBy_empty (room.trans limit.symm)
  have log : progress.log ++ (#[] : Array Event).map (.after progress.tally) = progress.log := by
    simp
  exact congrArg₂ (fun store log => Progress.mk store progress.tally log) store log

/-- The lines of a second listing are taken as if they stood alone, but behind the first. -/
theorem takeLines_append_of_ok {first : List Bytes} {progress : Progress}
    (done : takeLines settings first = .ok progress) (second : List Bytes) :
    takeLines settings (first ++ second) =
      continued progress settings.capacity
        (takeLines (settings.without progress.store.words.size) second) := by
  have reached := reached_of_takeLines done
  have fits := progress.store.size_le_limit
  rw [reached.limit] at fits
  have room := Nat.add_sub_cancel' fits
  have going := takeLines_append_eq settings first second
  rw [done] at going
  calc
    takeLines settings (first ++ second) = resume settings progress second := going
    _ = resume settings (progress.followedBy
          (start (settings.without progress.store.words.size))) second := by
      rw [followedBy_start reached.limit room]
    _ = continued progress settings.capacity
          (takeLines (settings.without progress.store.words.size) second) :=
      resume_followedBy room second

/-- A line that stops the first listing stops both. -/
theorem takeLines_append_of_error {first : List Bytes} {halt : Halt}
    (stopped : takeLines settings first = .error halt) (second : List Bytes) :
    takeLines settings (first ++ second) = .error halt := by
  rw [takeLines_append_eq, stopped]
  rfl

/-! ## Outcomes -/

/-- The outcome of a listing that stands behind another one. -/
def Outcome.after (first : Progress) (limit : Nat) (outcome : Outcome) : Outcome where
  log := first.log ++ outcome.log.map (.after first.tally)
  result :=
    match outcome.result with
    | .ok second => .ok ⟨first.store.followedBy second.store, first.tally.add second.tally⟩
    | .error failure => .error (failure.after first.tally limit)

theorem Outcome.result_after_of_ok {first : Progress} {limit : Nat} {outcome : Outcome}
    {second : Listing} (succeeded : outcome.result = .ok second) :
    (outcome.after first limit).result =
      .ok ⟨first.store.followedBy second.store, first.tally.add second.tally⟩ := by
  rw [after, succeeded]

theorem Outcome.result_after_of_error {first : Progress} {limit : Nat} {outcome : Outcome}
    {failure : ConversionFailure} (failed : outcome.result = .error failure) :
    (outcome.after first limit).result = .error (failure.after first.tally limit) := by
  rw [after, failed]

section Joined

variable {first : Bytes} (whole : Split.Whole first) (second : Source)

include whole

theorem convert_after_of_ok {progress : Progress}
    (done : takeLines settings (Split.lines first) = .ok progress) :
    convert settings (second.after first) =
      (convert (settings.without progress.store.words.size) second).after progress
        settings.capacity := by
  have joined := takeLines_append_of_ok done second.lines
  rw [← Source.lines_after whole second] at joined
  cases taken : takeLines (settings.without progress.store.words.size) second.lines with
  | error halt =>
      rw [taken] at joined
      rw [convert_of_error joined, convert_of_error taken]
      rfl
  | ok next =>
      rw [taken] at joined
      cases fault : second.fault with
      | some cause =>
          rw [convert_of_fault joined fault, convert_of_fault taken fault]
          rfl
      | none =>
          have log : (progress.followedBy next).log.push
                (.finished (progress.followedBy next).tally) =
              progress.log ++ (next.log.push (.finished next.tally)).map
                (.after progress.tally) := by
            simp [Progress.followedBy, Event.after]
          rw [convert_of_ok joined fault, convert_of_ok taken fault, log]
          rfl

theorem convert_after_of_error {halt : Halt}
    (stopped : takeLines settings (Split.lines first) = .error halt) :
    convert settings (second.after first) = ⟨halt.log, .error halt.failure⟩ := by
  apply convert_of_error
  rw [Source.lines_after whole]
  exact takeLines_append_of_error stopped second.lines

end Joined

/-- A listing of whole lines can be converted before what stands behind it.  Its failure
is that of both.  If it succeeds, the rest is converted with the room that is left: its
words and events follow those of the first listing, counts are added, lines are numbered on,
and only the limit in a failure is that of both. -/
theorem convert_append (settings : Settings) {first : Bytes} (whole : Split.Whole first)
    (second : Source) :
    (∀ failure, (convert settings { bytes := first }).result = .error failure →
      convert settings (second.after first) = convert settings { bytes := first }) ∧
    (∀ head, (convert settings { bytes := first }).result = .ok head →
      head.store.size ≤ settings.capacity ∧
      ∃ log, (convert settings { bytes := first }).log = log.push (.finished head.tally) ∧
        (convert settings (second.after first)).log =
          log ++ (convert (settings.without head.store.size) second).log.map
            (.after head.tally) ∧
        (∀ tail, (convert (settings.without head.store.size) second).result = .ok tail →
          ∃ listing, (convert settings (second.after first)).result = .ok listing ∧
            listing.store.toList = head.store.toList ++ tail.store.toList ∧
            listing.tally = head.tally.add tail.tally) ∧
        (∀ failure,
          (convert (settings.without head.store.size) second).result = .error failure →
            (convert settings (second.after first)).result =
              .error (failure.after head.tally settings.capacity))) := by
  cases taken : takeLines settings (Source.lines { bytes := first }) with
  | error halt =>
      rw [convert_of_error taken, convert_after_of_error whole second taken]
      refine ⟨fun _ _ => rfl, ?_⟩
      intro head impossible
      cases impossible
  | ok progress =>
      have reached := reached_of_takeLines taken
      rw [convert_of_ok taken rfl, convert_after_of_ok whole second taken]
      constructor
      · intro failure impossible
        cases impossible
      · intro head succeeded
        cases succeeded
        refine ⟨reached.limit ▸ progress.store.size_le_limit, progress.log, rfl, rfl, ?_, ?_⟩
        · intro tail succeeded
          exact ⟨_, Outcome.result_after_of_ok succeeded, Store.toList_followedBy _ _, rfl⟩
        · intro failure failed
          exact Outcome.result_after_of_error failed

/-- A listing of one record. -/
def opening : Bytes :=
  Utf8.encode " 104  F3 0001 0001 110 01 ???? ?? 0010 0110 000 00 00 000 0000 ? 0 0 1 \r\n"

/-- A comment, a record with open digits, and another record without a line feed. -/
def closing : Bytes :=
  Utf8.encode ("# ADDR\n" ++
    " B6?  F3 0001 0001 110 01 ???? ?? 0010 0110 000 00 00 000 0000 ? 0 0 1 \n" ++
    " 105  F3 0001 0001 110 01 ???? ?? 0010 0110 000 00 00 000 0000 ? 0 0 1 ")

def pair : Settings where
  capacity := 2

/-- The third record does not fit, whether or not the first one is counted. -/
theorem convert_append_opening :
    Split.Whole opening ∧
    (convert (pair.without 1) { bytes := closing }).result = .error (.capacity 3 ⟨1⟩) ∧
    (convert pair (Source.after { bytes := closing } opening)).result =
      .error (.capacity 4 ⟨2⟩) := by
  have whole : Split.Whole opening := Or.inr (by decide)
  have failed : (convert (pair.without 1) { bytes := closing }).result =
      .error (.capacity 3 ⟨1⟩) := by
    decide +kernel
  have begun : (convert pair { bytes := opening }).result.map
      (fun head => (head.store.size, head.tally)) = .ok (1, { lines := 1, records := 1 }) := by
    decide +kernel
  refine ⟨whole, failed, ?_⟩
  cases found : (convert pair { bytes := opening }).result with
  | error failure =>
      rw [found] at begun
      cases begun
  | ok head =>
      rw [found] at begun
      rcases Prod.mk.inj (Except.ok.inj begun) with ⟨size, tally⟩
      rcases (convert_append pair whole { bytes := closing }).2 head found with
        ⟨-, log, -, -, -, failures⟩
      rw [size] at failures
      rw [failures _ failed, tally]
      rfl

end Conversion

end Microcode
