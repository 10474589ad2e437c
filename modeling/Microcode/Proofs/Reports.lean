import Microcode.Proofs.Admission
import Microcode.Proofs.Classification
import Microcode.Proofs.Resumption

namespace Microcode

/-!
What a conversion reports.

A line has its own reports, whatever stands around it: a record for another version is
named with its tag, and a record that is taken is named once for each of its two numerals
that holds anything but digits.  The log consists of the reports of the lines that were
read, in their order, and of a summary behind them if the conversion succeeds.  A line that
stops the conversion is among the lines that were read.  It has reports only if it is a
record for which there is no room.
-/

namespace Line

/-- The octets in the version columns of a line, with blanks behind its end. -/
def paddedTag (line : Bytes) : Bytes :=
  [82, 83, 84].map fun column => (dropReturn line).getD column Octet.blank

/-- What the line holds in these columns, and blanks for the rest. -/
theorem paddedTag_eq (line : Bytes) :
    paddedTag line = ((dropReturn line).drop 82).take 3 ++
      List.replicate (3 - ((dropReturn line).length - 82)) Octet.blank :=
  map_getD_range' (dropReturn line) 82 3

/-- The numerals of a line that hold anything but digits, from left to right. -/
def openNumerals (line : Bytes) : List Field :=
  [Field.addr, Field.cn].filter fun field => !(field.slice line).all Hex.isDigit

theorem version_eq_paddedTag {line : Bytes} {record : Record}
    (octets : record.octets = dropReturn line) : record.version = paddedTag line := by
  rw [Record.version, paddedTag, octets]
  rfl

/-- A line is passed over under the tag in its version columns. -/
theorem tag_of_unlisted {accepted : TagSet} {strictness : Strictness} {line : Bytes}
    {tag : String} (found : classify accepted strictness line = .ok (.unlisted tag)) :
    tag = Utf8.decode (paddedTag line) := by
  rcases classify_eq_unlisted_iff.mp found with ⟨read, octets, -, shown⟩
  rw [shown, version_eq_paddedTag octets]

/-- The truncated numerals of a record are those of its line that hold anything but
digits. -/
theorem truncated_of_record {accepted : TagSet} {strictness : Strictness} {line : Bytes}
    {record : Record} (found : classify accepted strictness line = .ok (.record record)) :
    record.truncated = openNumerals line := by
  have digits (field : Field) :
      decide (Hex.consumed (record.text field) < field.width) =
        !(field.slice line).all Hex.isDigit := by
    rw [slice_of_record found, ← record.length_text field, Bool.eq_iff_iff, decide_eq_true_eq,
      ← Nat.not_le, Hex.length_le_consumed_iff]
    simp
  simp only [Record.truncated, Bool.decide_and, digits]
  rw [openNumerals, ← Field.filter_hex, List.filter_filter]
  simp only [Bool.and_comm]

end Line

namespace Conversion

variable {settings : Settings}

/-- The reports of a line. -/
def reports (settings : Settings) (lineNumber : Nat) (line : Bytes) : List Event :=
  match reading settings line with
  | .ok (.unlisted _) => [.skipped lineNumber (Utf8.decode (Line.paddedTag line))]
  | .ok (.record _) => (Line.openNumerals line).map (.truncated lineNumber)
  | _ => []

/-- The reports of some lines, in their order. -/
def allReports (settings : Settings) (lines : List Bytes) : List Event :=
  lines.zipIdx.flatMap fun (line, index) => reports settings (index + 1) line

/-- The reports of a line that stops the conversion. -/
def lastReports (line : Bytes) : ConversionFailure → List Event
  | .capacity lineNumber _ => (Line.openNumerals line).map (.truncated lineNumber)
  | _ => []

theorem lineEvents_eq_reports (settings : Settings) (lineNumber : Nat) (line : Bytes) :
    lineEvents settings lineNumber line = reports settings lineNumber line := by
  unfold lineEvents reports
  cases found : reading settings line with
  | error fault => rfl
  | ok kind =>
      cases kind with
      | comment => rfl
      | unlisted tag => simp only [Line.tag_of_unlisted found]
      | record record => simp only [warnings, Line.truncated_of_record found]

theorem events_eq_allReports (settings : Settings) (lines : List Bytes) :
    events settings lines = allReports settings lines := by
  simp only [events, allReports, lineEvents_eq_reports]

theorem allReports_concat (taken : List Bytes) (line : Bytes) :
    allReports settings (taken ++ [line]) =
      allReports settings taken ++ reports settings (taken.length + 1) line := by
  rw [← events_eq_allReports, ← events_eq_allReports, events_concat, lineEvents_eq_reports]

/-- The line that stops a conversion is reported if it is a record. -/
theorem reports_of_stops {earlier : List Bytes} {line : Bytes} {failure : ConversionFailure}
    (stops : Stops settings earlier line failure) :
    reports settings (earlier.length + 1) line = lastReports line failure := by
  cases stops with
  | format text fault _ =>
      rw [reports, fault]
      rfl
  | field cause fault =>
      rw [reports, fault]
      rfl
  | capacity record found _ =>
      rw [reports, found]
      rfl

/-! ## Kinds of reports -/

/-- A line is reported on the level of details if it is passed over, and not otherwise. -/
theorem countP_debug_reports (settings : Settings) (lineNumber : Nat) (line : Bytes) :
    (reports settings lineNumber line).countP (·.level = .debug) =
      if isUnlisted settings line then 1 else 0 := by
  unfold reports isUnlisted
  cases reading settings line with
  | error fault => rfl
  | ok kind =>
      cases kind with
      | comment => rfl
      | unlisted tag => rfl
      | record record =>
          simp only [Bool.false_eq_true, if_false, List.countP_eq_zero]
          intro event member
          rcases List.mem_map.mp member with ⟨field, -, rfl⟩
          simp [Event.level]

theorem countP_debug_allReports (settings : Settings) (lines : List Bytes) :
    (allReports settings lines).countP (·.level = .debug) =
      lines.countP (isUnlisted settings) := by
  induction lines using List.reverseRecOn with
  | nil => rfl
  | append_singleton taken line ih =>
      rw [allReports_concat, List.countP_append, List.countP_append, ih, countP_debug_reports,
        List.countP_singleton]

/-- No line has a summary among its reports. -/
theorem finished_not_mem_allReports (settings : Settings) (lines : List Bytes) (tally : Tally) :
    Event.finished tally ∉ allReports settings lines := by
  intro member
  rcases List.mem_flatMap.mp member with ⟨⟨line, index⟩, -, here⟩
  dsimp only [reports] at here
  cases found : reading settings line with
  | error fault => simp [found] at here
  | ok kind => cases kind <;> simp [found] at here

theorem finished_not_mem_lastReports (line : Bytes) (failure : ConversionFailure)
    (tally : Tally) : Event.finished tally ∉ lastReports line failure := by
  cases failure <;> simp [lastReports]

/-! ## The log -/

/-- The line at an index is the first one to stop the conversion. -/
def StoppedAt (settings : Settings) (lines : List Bytes) (index : Nat) (line : Bytes)
    (failure : ConversionFailure) : Prop :=
  lines[index]? = some line ∧ Stops settings (lines.take index) line failure ∧
    ∀ earlier < index, ∀ other, ¬ FatalAt settings lines earlier other

/-- The failure names the line that stops the conversion. -/
theorem StoppedAt.line?_eq {lines : List Bytes} {index : Nat} {line : Bytes}
    {failure : ConversionFailure} (stopped : StoppedAt settings lines index line failure) :
    failure.line? = some (index + 1) := by
  rcases stopped with ⟨here, stops, -⟩
  have inside : index < lines.length := (List.getElem?_eq_some_iff.mp here).1
  have length : (lines.take index).length = index :=
    List.length_take_of_le (Nat.le_of_lt inside)
  cases stops <;> rw [ConversionFailure.line?, length]

section Outcomes

variable {source : Source}

/-- Every line is reported by a conversion that succeeds, and the counts stand at the end. -/
theorem log_of_ok {listing : Listing}
    (succeeded : (convert settings source).result = .ok listing) :
    (convert settings source).log.toList =
        allReports settings source.lines ++ [.finished listing.tally] ∧
      listing.tally = tallyOf settings source.lines := by
  rcases takeLines_of_result succeeded with ⟨progress, done, whole, rfl⟩
  have reached := reached_of_takeLines done
  refine ⟨?_, reached.tally⟩
  rw [convert_of_ok done whole, Array.toList_push, reached.log, events_eq_allReports]

/-- A conversion that fails reports the lines up to the one that stops it, or all lines if
only reading fails. -/
theorem log_of_error {failure : ConversionFailure}
    (failed : (convert settings source).result = .error failure) :
    (∃ index line, StoppedAt settings source.lines index line failure ∧
      failure.line? = some (index + 1) ∧
      (convert settings source).log.toList =
        allReports settings (source.lines.take index) ++ lastReports line failure) ∨
    ∃ cause, source.fault = some cause ∧ failure = .reading cause ∧
      (∀ index other, ¬ FatalAt settings source.lines index other) ∧
      (convert settings source).log.toList = allReports settings source.lines := by
  rcases passable_or_first_fatal settings source.lines with
    passable | ⟨index, other, ⟨line, here, stops⟩, first⟩
  · rcases takeLines_of_passable passable with ⟨progress, done, reached⟩
    cases fault : source.fault with
    | none =>
        rw [convert_of_ok done fault] at failed
        cases failed
    | some cause =>
        rw [convert_of_fault done fault] at failed ⊢
        cases failed
        refine Or.inr ⟨cause, rfl, rfl, passable, ?_⟩
        rw [reached.log, events_eq_allReports]
  · rcases takeLines_of_fatal ⟨line, here, stops⟩ first with ⟨log, stopped, reported⟩
    rw [convert_of_error stopped] at failed ⊢
    cases failed
    have last := reports_of_stops stops
    have stoppedAt : StoppedAt settings source.lines index line other := ⟨here, stops, first⟩
    refine Or.inl ⟨index, line, stoppedAt, stoppedAt.line?_eq, ?_⟩
    rw [reported, List.take_add_one, here, Option.toList_some, events_eq_allReports,
      allReports_concat, last]

/-- The summary is there just when the conversion succeeds. -/
theorem finished_mem_log {tally : Tally} :
    Event.finished tally ∈ (convert settings source).log.toList ↔
      ∃ listing, (convert settings source).result = .ok listing ∧ listing.tally = tally := by
  have absent := finished_not_mem_allReports settings
  cases result : (convert settings source).result with
  | ok listing =>
      rw [(log_of_ok result).1, List.mem_append, List.mem_singleton]
      constructor
      · rintro (reported | same)
        · exact absurd reported (absent _ tally)
        · cases same
          exact ⟨listing, rfl, rfl⟩
      · rintro ⟨found, same, rfl⟩
        cases same
        exact Or.inr rfl
  | error failure =>
      constructor
      · intro member
        rcases log_of_error result with ⟨index, line, -, -, log⟩ | ⟨cause, -, -, -, log⟩
        · rw [log, List.mem_append] at member
          rcases member with reported | last
          · exact absurd reported (absent _ tally)
          · exact absurd last (finished_not_mem_lastReports line failure tally)
        · rw [log] at member
          exact absurd member (absent _ tally)
      · rintro ⟨listing, impossible, -⟩
        cases impossible

end Outcomes

/-- The log of a conversion, read off its lines.  If the conversion succeeds, all lines are
reported and their counts come last.  If it fails at a line, the lines before that one are
reported, and the line itself only where it is a record for which there is no room.  If
it fails because the listing cannot be read to its end, all lines that were read are
reported. -/
theorem log_determined_by_lines (settings : Settings) (source : Source) :
    (∀ listing, (convert settings source).result = .ok listing →
      (convert settings source).log.toList =
          allReports settings source.lines ++ [.finished listing.tally] ∧
      (convert settings source).log.toList.countP (·.level = .debug) =
        listing.tally.unlisted) ∧
    (∀ failure, (convert settings source).result = .error failure →
      (∃ index line, StoppedAt settings source.lines index line failure ∧
        failure.line? = some (index + 1) ∧
        (convert settings source).log.toList =
          allReports settings (source.lines.take index) ++ lastReports line failure) ∨
      ∃ cause, source.fault = some cause ∧ failure = .reading cause ∧
        (∀ index other, ¬ FatalAt settings source.lines index other) ∧
        (convert settings source).log.toList = allReports settings source.lines) ∧
    (∀ tally, Event.finished tally ∈ (convert settings source).log.toList ↔
      ∃ listing, (convert settings source).result = .ok listing ∧ listing.tally = tally) := by
  refine ⟨?_, fun _ => log_of_error, fun _ => finished_mem_log⟩
  intro listing succeeded
  rcases log_of_ok succeeded with ⟨log, tally⟩
  refine ⟨log, ?_⟩
  rw [log, List.countP_append, countP_debug_allReports, tally]
  rfl

/-- A comment, a record for another version, and two records with open digits. -/
def talkative : Bytes :=
  Utf8.encode ("# ADDR\n" ++
    " 104  F3 0001 0001 110 01 ???? ?? 0010 0110 000 00 00 000 0000 ? 0 0 1 # QA001:C2 9\n" ++
    " B6?  F3 0001 0001 110 01 ???? ?? 0010 0110 000 00 00 000 0000 ? 0 0 1 \r\n" ++
    " ???  ?? 0001 0001 110 01 ???? ?? 0010 0110 000 00 00 000 0000 ? 0 0 1 \n" ++
    "stray")

/-- The third record does not fit, but its numerals are reported before that is noticed.
With more room the conversion goes on to the last line, of which nothing is reported.  The
first three lines, which are 164 octets, are converted without a failure. -/
theorem log_of_talkative :
    ((convert tight { bytes := talkative }).result = .error (.capacity 4 ⟨1⟩) ∧
      (convert tight { bytes := talkative }).log.toList =
        [.skipped 2 "9  ", .truncated 3 .addr, .truncated 4 .addr, .truncated 4 .cn]) ∧
    ((convert {} { bytes := talkative }).result = .error (.format 5 "stray") ∧
      (convert {} { bytes := talkative }).log.toList =
        [.skipped 2 "9  ", .truncated 3 .addr, .truncated 4 .addr, .truncated 4 .cn]) ∧
    (convert {} { bytes := talkative.take 164 }).log.toList =
      [.skipped 2 "9  ", .truncated 3 .addr,
        .finished { lines := 3, records := 1, comments := 1, unlisted := 1 }] := by
  have full : (convert tight { bytes := talkative }).result = .error (.capacity 4 ⟨1⟩) := by
    decide +kernel
  have stray : (convert {} { bytes := talkative }).result = .error (.format 5 "stray") := by
    decide +kernel
  have begun : (convert {} { bytes := talkative.take 164 }).result.map (·.tally) =
      .ok { lines := 3, records := 1, comments := 1, unlisted := 1 } := by
    decide +kernel
  refine ⟨⟨full, ?_⟩, ⟨stray, ?_⟩, ?_⟩
  · rcases (log_determined_by_lines tight _).2.1 _ full with
      ⟨index, line, ⟨here, -⟩, number, log⟩ | ⟨cause, impossible, -⟩
    · cases number
      cases here
      rw [log]
      decide +kernel
    · cases impossible
  · rcases (log_determined_by_lines {} _).2.1 _ stray with
      ⟨index, line, ⟨here, -⟩, number, log⟩ | ⟨cause, impossible, -⟩
    · cases number
      cases here
      rw [log]
      decide +kernel
    · cases impossible
  · cases result : (convert {} { bytes := talkative.take 164 }).result with
    | error failure =>
        rw [result] at begun
        cases begun
    | ok listing =>
        rw [result] at begun
        have tally := Except.ok.inj begun
        rw [((log_determined_by_lines {} _).1 listing result).1, show listing.tally = _ from tally]
        decide +kernel

end Conversion

end Microcode
