import Microcode.Proofs.Outcome

namespace Microcode

/-!
Conversions that go on from a state.

A conversion of several lines can be interrupted at any line and go on from the state
reached there.  Every line it takes is counted, and a line that stops it is named by its
number, so what a conversion does after some state bears on later lines only.
-/

/-- The line at which a conversion stopped, unless reading itself failed. -/
def ConversionFailure.line? : ConversionFailure → Option Nat
  | format lineNumber _ => some lineNumber
  | field lineNumber _ => some lineNumber
  | capacity lineNumber _ => some lineNumber
  | reading _ => none

theorem Store.limit_of_push {store next : Store} {word : Word}
    (pushed : store.push word = .ok next) : next.limit = store.limit := by
  by_cases room : store.words.size < store.limit
  · rw [push_of_room store word room] at pushed
    cases pushed
    rfl
  · rw [push_of_full store word (Nat.le_of_not_lt room)] at pushed
    cases pushed

namespace Conversion

variable {settings : Settings} {progress next : Progress} {halt : Halt}

/-- Take further lines from a state on. -/
def resume (settings : Settings) (progress : Progress) (lines : List Bytes) :
    Except Halt Progress :=
  lines.foldlM (step settings) progress

theorem resume_cons (line : Bytes) (lines : List Bytes) :
    resume settings progress (line :: lines) =
      step settings progress line >>= fun next => resume settings next lines :=
  List.foldlM_cons

theorem resume_append (settings : Settings) (progress : Progress) (first second : List Bytes) :
    resume settings progress (first ++ second) =
      resume settings progress first >>= fun next => resume settings next second :=
  List.foldlM_append

theorem takeLines_append_eq (settings : Settings) (first second : List Bytes) :
    takeLines settings (first ++ second) =
      takeLines settings first >>= fun next => resume settings next second :=
  resume_append settings (start settings) first second

/-! ## Single steps -/

theorem classify_eq_reading (settings : Settings) (line : Bytes) :
    Line.classify settings.accepted settings.strictness line = reading settings line :=
  rfl

/-- Nothing but the reading of a line depends on the settings. -/
theorem step_congr {other : Settings} {line : Bytes}
    (same : reading settings line = reading other line) :
    step settings progress line = step other progress line := by
  rw [step, step, classify_eq_reading, classify_eq_reading, same]

/-- A line that is taken is counted by its kind, and the store keeps its limit. -/
theorem step_eq_ok {line : Bytes} (stepped : step settings progress line = .ok next) :
    ∃ kind, reading settings line = .ok kind ∧ next.tally = progress.tally.count kind ∧
      next.store.limit = progress.store.limit := by
  rw [step, classify_eq_reading] at stepped
  cases found : reading settings line with
  | error fault => cases fault <;> simp [found] at stepped
  | ok kind =>
      refine ⟨kind, rfl, ?_⟩
      cases kind with
      | comment =>
          simp only [found] at stepped
          cases stepped
          exact ⟨rfl, rfl⟩
      | unlisted tag =>
          simp only [found] at stepped
          cases stepped
          exact ⟨rfl, rfl⟩
      | record record =>
          simp only [found, takeRecord] at stepped
          cases pushed : progress.store.push (Word.pack record) with
          | error full => simp [pushed] at stepped
          | ok store =>
              simp only [pushed] at stepped
              cases stepped
              exact ⟨rfl, Store.limit_of_push pushed⟩

/-- A line that is not taken is named by its number. -/
theorem step_eq_error {line : Bytes} (stopped : step settings progress line = .error halt) :
    halt.failure.line? = some (progress.tally.lines + 1) := by
  unfold step at stopped
  split at stopped
  case h_1 => cases stopped; rfl
  case h_2 => cases stopped; rfl
  case h_3 => cases stopped
  case h_4 => cases stopped
  case h_5 record _ =>
    simp only [takeRecord] at stopped
    cases pushed : progress.store.push (Word.pack record) with
    | ok store => simp [pushed] at stopped
    | error full =>
        simp only [pushed] at stopped
        cases stopped
        rfl

/-! ## Runs -/

/-- A conversion that goes on stops at one of the lines that are still to come. -/
theorem line_of_resume {lines : List Bytes}
    (stopped : resume settings progress lines = .error halt) :
    ∃ number, halt.failure.line? = some number ∧ progress.tally.lines < number := by
  induction lines generalizing progress with
  | nil => cases stopped
  | cons line lines ih =>
      rw [resume_cons] at stopped
      cases stepped : step settings progress line with
      | error first =>
          rw [stepped] at stopped
          cases stopped
          exact ⟨_, step_eq_error stepped, Nat.lt_succ_self _⟩
      | ok next =>
          rw [stepped] at stopped
          rcases ih stopped with ⟨number, named, later⟩
          rcases step_eq_ok stepped with ⟨kind, -, tally, -⟩
          have counted : next.tally.lines = progress.tally.lines + 1 := by
            rw [tally]
            cases kind <;> rfl
          exact ⟨number, named, by omega⟩

theorem reached_of_takeLines {lines : List Bytes}
    (done : takeLines settings lines = .ok progress) : Reached settings lines progress := by
  rcases passable_or_first_fatal settings lines with passable | ⟨index, failure, fatal, first⟩
  · rcases takeLines_of_passable passable with ⟨found, taken, reached⟩
    cases done.symm.trans taken
    exact reached
  · rcases takeLines_of_fatal fatal first with ⟨log, stopped, -⟩
    cases done.symm.trans stopped

/-- A conversion that stops does so at a fatal line, and its log ends there. -/
theorem fatal_of_takeLines {lines : List Bytes}
    (stopped : takeLines settings lines = .error halt) :
    ∃ index, FatalAt settings lines index halt.failure ∧
      halt.log.toList = events settings (lines.take (index + 1)) := by
  rcases passable_or_first_fatal settings lines with passable | ⟨index, failure, fatal, first⟩
  · rcases takeLines_of_passable passable with ⟨found, taken, -⟩
    cases stopped.symm.trans taken
  · rcases takeLines_of_fatal fatal first with ⟨log, found, reports⟩
    cases stopped.symm.trans found
    exact ⟨index, fatal, reports⟩

/-- No line is fatal once all of them are taken. -/
theorem passable_of_takeLines {lines : List Bytes}
    (done : takeLines settings lines = .ok progress) :
    ∀ index failure, ¬ FatalAt settings lines index failure := by
  rcases passable_or_first_fatal settings lines with passable | ⟨index, failure, fatal, first⟩
  · exact passable
  · rcases takeLines_of_fatal fatal first with ⟨log, stopped, -⟩
    cases done.symm.trans stopped

/-! ## Outcomes -/

section Outcomes

variable {source : Source}

theorem convert_of_error (stopped : takeLines settings source.lines = .error halt) :
    convert settings source = ⟨halt.log, .error halt.failure⟩ := by
  rw [convert, stopped]

theorem convert_of_ok (done : takeLines settings source.lines = .ok progress)
    (whole : source.fault = none) :
    convert settings source =
      ⟨progress.log.push (.finished progress.tally), .ok ⟨progress.store, progress.tally⟩⟩ := by
  rw [convert, done]
  dsimp only
  rw [whole]

theorem convert_of_fault {cause : String}
    (done : takeLines settings source.lines = .ok progress)
    (broken : source.fault = some cause) :
    convert settings source = ⟨progress.log, .error (.reading cause)⟩ := by
  rw [convert, done]
  dsimp only
  rw [broken]

/-- Success takes all lines and no fault behind them. -/
theorem takeLines_of_result {listing : Listing}
    (succeeded : (convert settings source).result = .ok listing) :
    ∃ progress, takeLines settings source.lines = .ok progress ∧ source.fault = none ∧
      listing = ⟨progress.store, progress.tally⟩ := by
  cases taken : takeLines settings source.lines with
  | error halt =>
      rw [convert_of_error taken] at succeeded
      cases succeeded
  | ok progress =>
      cases fault : source.fault with
      | some cause =>
          rw [convert_of_fault taken fault] at succeeded
          cases succeeded
      | none =>
          rw [convert_of_ok taken fault] at succeeded
          cases succeeded
          exact ⟨progress, rfl, rfl, rfl⟩

/-- A conversion fails at a line, or because of a fault behind all lines. -/
theorem takeLines_of_failure {failure : ConversionFailure}
    (failed : (convert settings source).result = .error failure) :
    (∃ halt, takeLines settings source.lines = .error halt ∧ failure = halt.failure) ∨
      ∃ cause, source.fault = some cause ∧ failure = .reading cause := by
  cases taken : takeLines settings source.lines with
  | error halt =>
      rw [convert_of_error taken] at failed
      exact Or.inl ⟨halt, rfl, (Except.error.inj failed).symm⟩
  | ok progress =>
      cases fault : source.fault with
      | some cause =>
          rw [convert_of_fault taken fault] at failed
          exact Or.inr ⟨cause, rfl, (Except.error.inj failed).symm⟩
      | none =>
          rw [convert_of_ok taken fault] at failed
          cases failed

/-- Besides the summary at its end, the log holds what the lines have to report. -/
theorem mem_log {event : Event} (member : event ∈ (convert settings source).log) :
    (∃ lines, lines <+: source.lines ∧ event ∈ events settings lines) ∨
      ∃ tally, event = .finished tally := by
  cases taken : takeLines settings source.lines with
  | error halt =>
      rw [convert_of_error taken] at member
      rcases fatal_of_takeLines taken with ⟨index, -, reports⟩
      refine Or.inl ⟨_, List.take_prefix (index + 1) source.lines, ?_⟩
      rw [← reports]
      exact Array.mem_toList_iff.mpr member
  | ok progress =>
      have reports := (reached_of_takeLines taken).log
      have reported : event ∈ progress.log → event ∈ events settings source.lines := by
        intro found
        rw [← reports]
        exact Array.mem_toList_iff.mpr found
      cases fault : source.fault with
      | some cause =>
          rw [convert_of_fault taken fault] at member
          exact Or.inl ⟨source.lines, List.prefix_rfl, reported member⟩
      | none =>
          rw [convert_of_ok taken fault] at member
          rcases Array.mem_push.mp member with found | rfl
          · exact Or.inl ⟨source.lines, List.prefix_rfl, reported found⟩
          · exact Or.inr ⟨progress.tally, rfl⟩

end Outcomes

end Conversion

end Microcode
