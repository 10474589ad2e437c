import Microcode.Proofs.Admission
import Microcode.Proofs.Classification
import Microcode.Proofs.Resumption

namespace Microcode

/-!
Strict and lenient conversions of one listing.

On a tight line the two differ only where a lenient reading finds a record with a fault
in its fields.  So two conversions go along together up to the first such line.  There the
strict one stops, unless both have stopped before.
-/

/-- The settings with another strictness. -/
def Settings.under (settings : Settings) (strictness : Strictness) : Settings :=
  { settings with strictness }

namespace Conversion

variable {settings : Settings} {progress next : Progress}

/-- A record in the line, if a lenient reading finds one, has no fault in its fields. -/
def Faultless (settings : Settings) (line : Bytes) : Prop :=
  ∀ record, Line.classify settings.accepted .lenient line = .ok (.record record) →
    record.fault? = none

/-! ## Single lines -/

theorem reading_strict_of_faultless {line : Bytes} (faultless : Faultless settings line) :
    reading (settings.under .strict) line = reading (settings.under .lenient) line := by
  change Line.classify settings.accepted .strict line =
    Line.classify settings.accepted .lenient line
  rw [Line.classify_strict]
  cases found : Line.classify settings.accepted .lenient line with
  | error fault => rfl
  | ok kind =>
      cases kind with
      | comment => rfl
      | unlisted tag => rfl
      | record record =>
          change Line.checked (.record record) = _
          rw [Line.checked, faultless record found]

/-- A line with a fault stops a strict conversion, whatever the state. -/
theorem step_strict_of_fault {line : Bytes} (faulty : ¬ Faultless settings line) :
    ∃ cause, ∀ progress, step (settings.under .strict) progress line =
      .error ⟨.field (progress.tally.lines + 1) cause, progress.log⟩ := by
  simp only [Faultless, not_forall, exists_prop] at faulty
  rcases faulty with ⟨record, found, fault⟩
  rcases Option.ne_none_iff_exists'.mp fault with ⟨cause, present⟩
  have strict : Line.classify settings.accepted .strict line = .error (.field cause) := by
    rw [Line.classify_strict, found]
    change Line.checked (.record record) = _
    rw [Line.checked, present]
  refine ⟨cause, fun progress => ?_⟩
  have stops : reading (settings.under .strict) line = .error (.field cause) := strict
  rw [step, classify_eq_reading, stops]

/-! ## Whole conversions -/

theorem resume_strict_of_faultless {lines : List Bytes}
    (faultless : ∀ line ∈ lines, Faultless settings line) :
    resume (settings.under .strict) progress lines =
      resume (settings.under .lenient) progress lines := by
  induction lines generalizing progress with
  | nil => rfl
  | cons line lines ih =>
      have here := reading_strict_of_faultless (faultless line List.mem_cons_self)
      have later := fun other member => faultless other (List.mem_cons_of_mem line member)
      rw [resume_cons, resume_cons, step_congr here]
      cases step (settings.under .lenient) progress line with
      | error halt => rfl
      | ok next => exact ih later

/-- Unless all lines are free of faults, there is a first line with one. -/
theorem faultless_or_first_fault (settings : Settings) (lines : List Bytes) :
    (∀ line ∈ lines, Faultless settings line) ∨
      ∃ taken line rest, lines = taken ++ line :: rest ∧
        (∀ earlier ∈ taken, Faultless settings earlier) ∧ ¬ Faultless settings line := by
  induction lines with
  | nil => exact Or.inl fun _ member => absurd member List.not_mem_nil
  | cons first lines ih =>
      by_cases here : Faultless settings first
      · rcases ih with all | ⟨taken, line, rest, divided, before, faulty⟩
        · exact Or.inl (List.forall_mem_cons.mpr ⟨here, all⟩)
        · refine Or.inr ⟨first :: taken, line, rest, ?_, ?_, faulty⟩
          · rw [divided, List.cons_append]
          · exact List.forall_mem_cons.mpr ⟨here, before⟩
      · exact Or.inr ⟨[], first, lines, rfl, fun _ member => absurd member List.not_mem_nil, here⟩

/-- Two conversions of the same lines do the same, stop for the same reason, or differ in
that the strict one stops at a line with a fault which the lenient one at least reaches. -/
theorem takeLines_strict (settings : Settings) (lines : List Bytes) :
    ((∀ line ∈ lines, Faultless settings line) ∧
      takeLines (settings.under .strict) lines = takeLines (settings.under .lenient) lines) ∨
    (∃ halt, takeLines (settings.under .strict) lines = .error halt ∧
      takeLines (settings.under .lenient) lines = .error halt) ∨
    (¬ ∀ line ∈ lines, Faultless settings line) ∧
      ∃ number cause log,
        takeLines (settings.under .strict) lines = .error ⟨.field number cause, log⟩ ∧
        ∀ halt, takeLines (settings.under .lenient) lines = .error halt →
          ∃ other, halt.failure.line? = some other ∧ number ≤ other := by
  rcases faultless_or_first_fault settings lines with
    all | ⟨taken, line, rest, divided, before, faulty⟩
  · exact Or.inl ⟨all, resume_strict_of_faultless all⟩
  have begun : takeLines (settings.under .strict) taken =
      takeLines (settings.under .lenient) taken :=
    resume_strict_of_faultless before
  have strict := takeLines_append_eq (settings.under .strict) taken (line :: rest)
  have lenient := takeLines_append_eq (settings.under .lenient) taken (line :: rest)
  rw [← divided] at strict lenient
  rw [begun] at strict
  cases reached : takeLines (settings.under .lenient) taken with
  | error halt =>
      rw [reached] at strict lenient
      exact Or.inr (Or.inl ⟨halt, strict, lenient⟩)
  | ok progress =>
      rw [reached] at strict lenient
      rcases step_strict_of_fault faulty with ⟨cause, stops⟩
      -- Both conversions are in one state in front of the faulty line.  What the lenient
      -- one makes of it is open, and so is whether the line finds room in the store.
      refine Or.inr (Or.inr ⟨?_, progress.tally.lines + 1, cause, progress.log, ?_, ?_⟩)
      · intro all
        exact faulty (all line (by rw [divided]; simp))
      · refine strict.trans ?_
        change resume _ progress (line :: rest) = _
        rw [resume_cons, stops progress]
        rfl
      · intro halt stopped
        exact line_of_resume (lenient.symm.trans stopped)

/-! ## Failures and warnings -/

/-- No lenient conversion stops because of what is in a field. -/
theorem lenient_ne_field (settings : Settings) (source : Source) (number : Nat)
    (fault : FieldFault) :
    (convert (settings.under .lenient) source).result ≠ .error (.field number fault) := by
  intro failed
  rcases takeLines_of_failure failed with ⟨halt, stopped, same⟩ | ⟨cause, -, impossible⟩
  · rcases fatal_of_takeLines stopped with ⟨index, ⟨line, -, stops⟩, -⟩
    rw [← same] at stops
    cases stops with
    | field cause found => exact Line.classify_lenient_ne_field _ line _ found
  · cases impossible

/-- Under strict reading a line has no truncated numeral to report. -/
theorem truncated_not_mem_lineEvents (number other : Nat) (field : Field) (line : Bytes) :
    Event.truncated other field ∉ lineEvents (settings.under .strict) number line := by
  cases found : reading (settings.under .strict) line with
  | error fault => simp [lineEvents, found]
  | ok kind =>
      cases kind with
      | comment => simp [lineEvents, found]
      | unlisted tag => simp [lineEvents, found]
      | record record =>
          have faultless := (Line.classify_eq_record_iff.mp found).2.2 rfl
          simp [lineEvents, found, warnings, Record.truncated_eq_nil_of_fault? faultless]

/-- A strict conversion reports no truncated numerals, whether it succeeds or not. -/
theorem truncated_not_mem_log (settings : Settings) (source : Source) (number : Nat)
    (field : Field) :
    Event.truncated number field ∉ (convert (settings.under .strict) source).log := by
  intro member
  rcases mem_log member with ⟨lines, -, reported⟩ | ⟨tally, summary⟩
  · rcases List.mem_flatMap.mp reported with ⟨⟨line, index⟩, -, here⟩
    exact truncated_not_mem_lineEvents _ number field line here
  · cases summary

/-! ## Outcomes -/

/-- The failure names the line with the number or a later one.  A fault in reading comes
after all lines. -/
def NotBefore (source : Source) (number : Nat) (failure : ConversionFailure) : Prop :=
  (∃ later, failure.line? = some later ∧ number ≤ later) ∨
    ∃ cause, source.fault = some cause ∧ failure = .reading cause

/-- What the lines decide about two conversions, they decide about the outcomes. -/
theorem convert_strict (settings : Settings) (source : Source) :
    ((∀ line ∈ source.lines, Faultless settings line) ∧
      convert (settings.under .strict) source = convert (settings.under .lenient) source) ∨
    (∃ failure, (convert (settings.under .strict) source).result = .error failure ∧
      (convert (settings.under .lenient) source).result = .error failure) ∨
    (¬ ∀ line ∈ source.lines, Faultless settings line) ∧
      ∃ number cause,
        (convert (settings.under .strict) source).result = .error (.field number cause) ∧
        ∀ other, (convert (settings.under .lenient) source).result = .error other →
          NotBefore source number other := by
  rcases takeLines_strict settings source.lines with
    ⟨all, same⟩ | ⟨halt, strict, lenient⟩ | ⟨faulty, number, cause, log, strict, later⟩
  · refine Or.inl ⟨all, ?_⟩
    rw [convert, convert, same]
  · refine Or.inr (Or.inl ⟨halt.failure, ?_, ?_⟩)
    · rw [convert_of_error strict]
    · rw [convert_of_error lenient]
  · refine Or.inr (Or.inr ⟨faulty, number, cause, ?_, ?_⟩)
    · rw [convert_of_error strict]
    · intro other failed
      rcases takeLines_of_failure failed with ⟨halt, stopped, rfl⟩ | ⟨cause, fault, rfl⟩
      · exact Or.inl (later halt stopped)
      · exact Or.inr ⟨cause, fault, rfl⟩

/-- A strict conversion succeeds when a lenient one does and no record has a fault in its
fields; both then have the same outcome.  Otherwise it fails as the lenient one does, or
at a fault in a field.  The lenient one never stops at such a fault, and it does not fail
before the line that has it.  No strict conversion warns of a truncated numeral. -/
theorem strict_refines_lenient (settings : Settings) (source : Source) :
    ((∃ listing, (convert (settings.under .strict) source).result = .ok listing) ↔
      (∃ listing, (convert (settings.under .lenient) source).result = .ok listing) ∧
        ∀ line ∈ source.lines, Faultless settings line) ∧
    (∀ listing, (convert (settings.under .strict) source).result = .ok listing →
      convert (settings.under .strict) source = convert (settings.under .lenient) source) ∧
    (∀ failure, (convert (settings.under .strict) source).result = .error failure →
      (convert (settings.under .lenient) source).result = .error failure ∨
      ∃ number cause, failure = .field number cause ∧
        ∀ other, (convert (settings.under .lenient) source).result = .error other →
          NotBefore source number other) ∧
    (∀ number cause,
      (convert (settings.under .lenient) source).result ≠ .error (.field number cause)) ∧
    (∀ number field,
      Event.truncated number field ∉ (convert (settings.under .strict) source).log) := by
  refine and_assoc.mp (and_assoc.mp ⟨?_, lenient_ne_field settings source,
    truncated_not_mem_log settings source⟩)
  rcases convert_strict settings source with
    ⟨all, same⟩ | ⟨failure, strict, lenient⟩ | ⟨faulty, number, cause, strict, later⟩
  · rw [same]
    exact ⟨⟨⟨fun found => ⟨found, all⟩, And.left⟩, fun _ _ => rfl⟩, fun _ => Or.inl⟩
  · rw [strict, lenient]
    refine ⟨⟨⟨?_, ?_⟩, ?_⟩, fun _ => Or.inl⟩
    · rintro ⟨listing, impossible⟩
      cases impossible
    · rintro ⟨⟨listing, impossible⟩, -⟩
      cases impossible
    · intro listing impossible
      cases impossible
  · rw [strict]
    refine ⟨⟨⟨?_, fun both => absurd both.2 faulty⟩, ?_⟩, ?_⟩
    · rintro ⟨listing, impossible⟩
      cases impossible
    · intro listing impossible
      cases impossible
    · intro failure failed
      cases failed
      exact Or.inr ⟨number, cause, rfl, later⟩

/-- Two records.  The address of the second one ends early. -/
def halfOpen : Bytes :=
  Utf8.encode (" 104  F3 0001 0001 110 01 ???? ?? 0010 0110 000 00 00 000 0000 ? 0 0 1 \n" ++
    " B6?  F3 0001 0001 110 01 ???? ?? 0010 0110 000 00 00 000 0000 ? 0 0 1 \n")

/-- The first line of `halfOpen` is the same for both; the second one has no room in the
store, but a strict conversion does not get that far. -/
theorem strict_refines_lenient_halfOpen :
    (convert (tight.under .strict) { bytes := halfOpen.take 72 } =
        convert (tight.under .lenient) { bytes := halfOpen.take 72 } ∧
      (convert (tight.under .strict) { bytes := halfOpen.take 72 }).result.isOk) ∧
    (convert (tight.under .strict) { bytes := halfOpen }).result =
      .error (.field 2 ⟨.addr, .notHex 0x3F 2⟩) ∧
    (convert (tight.under .lenient) { bytes := halfOpen }).result =
      .error (.capacity 2 ⟨1⟩) ∧
    NotBefore { bytes := halfOpen } 2 (.capacity 2 ⟨1⟩) := by
  have succeeded : (convert (tight.under .strict) { bytes := halfOpen.take 72 }).result.isOk := by
    decide +kernel
  have strict : (convert (tight.under .strict) { bytes := halfOpen }).result =
      .error (.field 2 ⟨.addr, .notHex 0x3F 2⟩) := by
    decide +kernel
  have lenient : (convert (tight.under .lenient) { bytes := halfOpen }).result =
      .error (.capacity 2 ⟨1⟩) := by
    decide +kernel
  refine ⟨⟨?_, succeeded⟩, strict, lenient, ?_⟩
  · cases found : (convert (tight.under .strict) { bytes := halfOpen.take 72 }).result with
    | error failure =>
        rw [found] at succeeded
        cases succeeded
    | ok listing => exact (strict_refines_lenient tight _).2.1 listing found
  · rcases (strict_refines_lenient tight _).2.2.1 _ strict with same | ⟨number, cause, same, later⟩
    · cases lenient.symm.trans same
    · cases same
      exact later _ lenient

end Conversion

end Microcode
