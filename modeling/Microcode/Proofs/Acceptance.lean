import Microcode.Proofs.Classification
import Microcode.Proofs.Resumption
import Microcode.Proofs.TagSets

namespace Microcode

/-!
Conversions that accept more versions.

The version of a line is looked at behind the separator columns and in front of the fields.
So further versions turn nothing but lines that were passed over into records, and whatever
stops a conversion stops it for more versions as well.
-/

/-- The settings with other versions. -/
def Settings.accepting (settings : Settings) (accepted : TagSet) : Settings :=
  { settings with accepted }

variable {fewer more : TagSet}

/-- Where further versions make a difference, the line was passed over. -/
theorem Line.classify_of_subset (subset : fewer.tags ⊆ more.tags) (strictness : Strictness)
    (line : Bytes) :
    classify fewer strictness line = classify more strictness line ∨
      (∃ tag, classify fewer strictness line = .ok (.unlisted tag)) ∧
        ((∃ record, classify more strictness line = .ok (.record record)) ∨
          ∃ fault, classify more strictness line = .error (.field fault)) := by
  rcases comment_or_record_or_neither line with opens | ⟨read, octets⟩ | ⟨opens, filled⟩
  · left
    rw [classify_of_hash fewer strictness opens, classify_of_hash more strictness opens]
  · rw [classify_of_record fewer strictness octets, classify_of_record more strictness octets]
    by_cases early : fewer.contains read.version
    · left
      rw [if_pos early, if_pos (TagSet.contains_of_subset subset early)]
    · by_cases late : more.contains read.version
      · right
        rw [if_neg early, if_pos late]
        refine ⟨⟨_, rfl⟩, ?_⟩
        cases strictness with
        | lenient => exact Or.inl ⟨read, rfl⟩
        | strict =>
            cases read.fault? with
            | none => exact Or.inl ⟨read, rfl⟩
            | some fault => exact Or.inr ⟨fault, rfl⟩
      · left
        rw [if_neg early, if_neg late]
  · left
    rw [classify_of_not_blank fewer strictness opens filled,
      classify_of_not_blank more strictness opens filled]

namespace Conversion

variable {settings : Settings}

/-! ## Single lines -/

section Lines

variable (subset : fewer.tags ⊆ more.tags) {line : Bytes}

include subset

theorem reading_of_subset (settings : Settings) (line : Bytes) :
    reading (settings.accepting fewer) line = reading (settings.accepting more) line ∨
      (∃ tag, reading (settings.accepting fewer) line = .ok (.unlisted tag)) ∧
        ((∃ record, reading (settings.accepting more) line = .ok (.record record)) ∨
          ∃ fault, reading (settings.accepting more) line = .error (.field fault)) :=
  Line.classify_of_subset subset settings.strictness line

/-- What is not passed over stays what it is. -/
theorem reading_more_eq {kind : Except LineFault Line}
    (found : reading (settings.accepting fewer) line = kind)
    (taken : ∀ tag, kind ≠ .ok (.unlisted tag)) :
    reading (settings.accepting more) line = kind := by
  rcases reading_of_subset subset settings line with same | ⟨⟨tag, skipped⟩, -⟩
  · exact same ▸ found
  · exact absurd (found.symm.trans skipped) (taken tag)

/-- No line becomes or ceases to be malformed. -/
theorem reading_format_iff :
    reading (settings.accepting fewer) line = .error .format ↔
      reading (settings.accepting more) line = .error .format := by
  rcases reading_of_subset subset settings line with
    same | ⟨⟨tag, skipped⟩, ⟨record, found⟩ | ⟨fault, found⟩⟩
  · rw [same]
  · simp [skipped, found]
  · simp [skipped, found]

theorem isComment_of_subset (settings : Settings) :
    isComment (settings.accepting fewer) = isComment (settings.accepting more) := by
  funext line
  unfold isComment
  rcases reading_of_subset subset settings line with
    same | ⟨⟨tag, skipped⟩, ⟨record, found⟩ | ⟨fault, found⟩⟩
  · rw [same]
  · rw [skipped, found]
  · rw [skipped, found]

/-- The records are those whose version is among the fewer ones. -/
theorem record?_of_subset (settings : Settings) (line : Bytes) :
    record? (settings.accepting fewer) line =
      (record? (settings.accepting more) line).filter (fewer.contains ·.version) := by
  apply Option.ext
  intro record
  rw [record?_eq_some_iff, Option.filter_eq_some_iff, record?_eq_some_iff, reading, reading,
    Line.classify_eq_record_iff, Line.classify_eq_record_iff]
  constructor
  · rintro ⟨octets, listed, faultless⟩
    exact ⟨⟨octets, TagSet.contains_of_subset subset listed, faultless⟩, listed⟩
  · rintro ⟨⟨octets, -, faultless⟩, listed⟩
    exact ⟨octets, listed, faultless⟩

end Lines

/-! ## Conversions -/

section Conversions

variable (subset : fewer.tags ⊆ more.tags) {lines : List Bytes} {narrow wide : Progress}

include subset

/-- The records for fewer versions can be picked out of those for more. -/
theorem records_of_subset (settings : Settings) (lines : List Bytes) :
    records (settings.accepting fewer) lines =
      (records (settings.accepting more) lines).filter (fewer.contains ·.version) := by
  have picked := funext (record?_of_subset subset settings)
  rw [records, records, picked, List.filter_filterMap]

/-- What stops a line for fewer versions stops it for more. -/
theorem Stops.of_subset {line : Bytes} {failure : ConversionFailure}
    (stops : Stops (settings.accepting fewer) lines line failure) :
    Stops (settings.accepting more) lines line failure := by
  cases stops with
  | format text fault trimmed =>
      exact .format text ((reading_format_iff subset).mp fault) trimmed
  | field cause fault =>
      exact .field cause (reading_more_eq subset fault fun _ impossible => nomatch impossible)
  | capacity record found full =>
      have picked := List.length_filter_le (fewer.contains ·.version)
        (records (settings.accepting more) lines)
      rw [← records_of_subset subset] at picked
      exact .capacity record
        (reading_more_eq subset found fun _ impossible => nomatch impossible)
        (Nat.le_trans full picked)

/-- All lines that are taken for more versions are taken for fewer. -/
theorem takeLines_of_subset (done : takeLines (settings.accepting more) lines = .ok wide) :
    ∃ narrow, takeLines (settings.accepting fewer) lines = .ok narrow := by
  have passable : ∀ index failure, ¬ FatalAt (settings.accepting fewer) lines index failure := by
    rintro index failure ⟨line, here, stops⟩
    exact passable_of_takeLines done index failure ⟨line, here, stops.of_subset subset⟩
  rcases takeLines_of_passable passable with ⟨narrow, taken, -⟩
  exact ⟨narrow, taken⟩

/-- A record is counted as unlisted instead, and nothing else changes. -/
theorem tally_of_subset (early : Reached (settings.accepting fewer) lines narrow)
    (late : Reached (settings.accepting more) lines wide) :
    narrow.tally.lines = wide.tally.lines ∧ narrow.tally.comments = wide.tally.comments ∧
      narrow.tally.records + narrow.tally.unlisted =
        wide.tally.records + wide.tally.unlisted := by
  have number : narrow.tally.lines = wide.tally.lines := by
    rw [early.lines_eq, late.lines_eq]
  have comments : narrow.tally.comments = wide.tally.comments := by
    rw [early.tally, late.tally, tallyOf, tallyOf, isComment_of_subset subset]
  have kinds := early.total
  have others := late.total
  exact ⟨number, comments, by omega⟩

/-- A malformed line stops conversions for any versions. -/
theorem failure_of_subset {halt : Halt}
    (done : takeLines (settings.accepting fewer) lines = .ok narrow)
    (stopped : takeLines (settings.accepting more) lines = .error halt) :
    (∃ lineNumber full, halt.failure = .capacity lineNumber full) ∨
      ∃ lineNumber fault, halt.failure = .field lineNumber fault := by
  rcases fatal_of_takeLines stopped with ⟨index, ⟨line, here, stops⟩, -⟩
  generalize halt.failure = failure at stops
  cases stops with
  | format text fault trimmed =>
      have early : Stops (settings.accepting fewer) (lines.take index) line _ :=
        .format text ((reading_format_iff subset).mpr fault) trimmed
      exact absurd ⟨line, here, early⟩ (passable_of_takeLines done index _)
  | field cause fault => exact Or.inr ⟨_, cause, rfl⟩
  | capacity record found full => exact Or.inl ⟨_, _, rfl⟩

end Conversions

/-- Accepting more versions only adds records.  A conversion that succeeds for more versions
succeeds for fewer; its words are then among those for more versions, in the same order, and
lines that lose their record are counted as unlisted.  Where only the conversion for fewer
versions succeeds, the other one fails because of what is in a field or for lack of room. -/
theorem more_versions_add_records (settings : Settings) {fewer more : TagSet}
    (subset : fewer.tags ⊆ more.tags) (source : Source) :
    (∀ larger, (convert (settings.accepting more) source).result = .ok larger →
      ∃ smaller, (convert (settings.accepting fewer) source).result = .ok smaller ∧
        smaller.store.toList.Sublist larger.store.toList ∧
        smaller.tally.lines = larger.tally.lines ∧
        smaller.tally.comments = larger.tally.comments ∧
        smaller.tally.records + smaller.tally.unlisted =
          larger.tally.records + larger.tally.unlisted) ∧
    (∀ smaller failure, (convert (settings.accepting fewer) source).result = .ok smaller →
      (convert (settings.accepting more) source).result = .error failure →
        (∃ lineNumber full, failure = .capacity lineNumber full) ∨
        ∃ lineNumber fault, failure = .field lineNumber fault) := by
  constructor
  · intro larger succeeded
    rcases takeLines_of_result succeeded with ⟨wide, done, whole, rfl⟩
    rcases takeLines_of_subset subset done with ⟨narrow, taken⟩
    have early := reached_of_takeLines taken
    have late := reached_of_takeLines done
    refine ⟨⟨narrow.store, narrow.tally⟩, ?_, ?_, tally_of_subset subset early late⟩
    · rw [convert_of_ok taken whole]
    · rw [early.words, late.words, records_of_subset subset]
      exact List.filter_sublist.map Word.pack
  · intro smaller failure succeeded failed
    rcases takeLines_of_result succeeded with ⟨narrow, done, whole, -⟩
    rcases takeLines_of_failure failed with ⟨halt, stopped, rfl⟩ | ⟨cause, fault, -⟩
    · exact failure_of_subset subset done stopped
    · cases whole.symm.trans fault

/-- The versions without the one of the second record in `crowded`. -/
def unmarked : TagSet :=
  .ofList ["   "]

/-- Where there is room for two records, both versions succeed; where there is room for only
one, the second version has to be left out. -/
theorem more_versions_crowded :
    unmarked.tags ⊆ TagSet.standard.tags ∧
    ((convert (Settings.accepting {} .standard) { bytes := crowded }).result.isOk ∧
      ∃ smaller,
        (convert (Settings.accepting {} unmarked) { bytes := crowded }).result = .ok smaller ∧
        smaller.tally.records + smaller.tally.unlisted = 2) ∧
    ((convert (tight.accepting unmarked) { bytes := crowded }).result.isOk ∧
      ∃ failure,
        (convert (tight.accepting .standard) { bytes := crowded }).result = .error failure ∧
        ((∃ lineNumber full, failure = .capacity lineNumber full) ∨
          ∃ lineNumber fault, failure = .field lineNumber fault)) := by
  have subset : unmarked.tags ⊆ TagSet.standard.tags := by decide +kernel
  have larger : (convert (Settings.accepting {} .standard) { bytes := crowded }).result.map
      (·.tally) = .ok { lines := 3, records := 2, comments := 1, unlisted := 0 } := by
    decide +kernel
  have smaller : (convert (tight.accepting unmarked) { bytes := crowded }).result.isOk := by
    decide +kernel
  have failed : (convert (tight.accepting .standard) { bytes := crowded }).result =
      .error (.capacity 3 ⟨1⟩) := by
    decide +kernel
  refine ⟨subset, ?_, smaller, _, failed, ?_⟩
  · cases found : (convert (Settings.accepting {} .standard) { bytes := crowded }).result with
    | error failure =>
        rw [found] at larger
        cases larger
    | ok listing =>
        rw [found] at larger
        have tally : listing.tally = _ := Except.ok.inj larger
        rcases (more_versions_add_records {} subset { bytes := crowded }).1 listing found with
          ⟨smaller, succeeded, -, -, -, kinds⟩
        rw [tally] at kinds
        exact ⟨rfl, smaller, succeeded, kinds⟩
  · cases found : (convert (tight.accepting unmarked) { bytes := crowded }).result with
    | error failure =>
        rw [found] at smaller
        cases smaller
    | ok listing =>
        exact (more_versions_add_records tight subset { bytes := crowded }).2 listing _ found failed

end Conversion

end Microcode
