import Microcode.Proofs.Reference
import Mathlib.Data.List.Induction
import Mathlib.Data.Nat.Find

namespace Microcode
namespace Conversion

/-!
The outcome of a conversion.

A line is fatal when it stops the conversion after all lines before it.  Without a
fatal line the conversion takes all lines, and otherwise the first one decides.
-/

variable {settings : Settings} {lines : List Bytes}

/-- The line at an index stops the conversion with a failure, once all lines before it
are taken. -/
def FatalAt (settings : Settings) (lines : List Bytes) (index : Nat)
    (failure : ConversionFailure) : Prop :=
  ∃ line, lines[index]? = some line ∧ Stops settings (lines.take index) line failure

/-- A line is fatal whatever follows it. -/
theorem FatalAt.append {index : Nat} {failure : ConversionFailure}
    (fatal : FatalAt settings lines index failure) (rest : List Bytes) :
    FatalAt settings (lines ++ rest) index failure := by
  rcases fatal with ⟨line, here, stops⟩
  have inside : index < lines.length := (List.getElem?_eq_some_iff.mp here).1
  refine ⟨line, ?_, ?_⟩
  · rw [List.getElem?_append_left inside, here]
  · rwa [List.take_append_of_le_length (Nat.le_of_lt inside)]

theorem takeLines_append {progress : Progress} (done : takeLines settings lines = .ok progress)
    (line : Bytes) (rest : List Bytes) :
    takeLines settings (lines ++ line :: rest) =
      step settings progress line >>= fun next => rest.foldlM (step settings) next := by
  rw [takeLines] at done ⊢
  rw [List.foldlM_append, done]
  rfl

theorem takeLines_of_passable
    (passable : ∀ index failure, ¬ FatalAt settings lines index failure) :
    ∃ progress, takeLines settings lines = .ok progress ∧ Reached settings lines progress := by
  induction lines using List.reverseRecOn with
  | nil => exact ⟨start settings, rfl, reached_start⟩
  | append_singleton taken line ih =>
      have before : ∀ index failure, ¬ FatalAt settings taken index failure :=
        fun index failure fatal => passable index failure (fatal.append [line])
      rcases ih before with ⟨progress, done, reached⟩
      have here : ∀ failure, ¬ Stops settings taken line failure := by
        intro failure stops
        apply passable taken.length failure
        refine ⟨line, ?_, ?_⟩
        · simp
        · simpa using stops
      rcases reached.step_of_passable here with ⟨next, stepped, after⟩
      refine ⟨next, ?_, after⟩
      rw [takeLines_append done, stepped]
      rfl

/-- No line in front of the first fatal one is fatal when these lines stand alone. -/
theorem passable_take {index : Nat}
    (first : ∀ earlier < index, ∀ other, ¬ FatalAt settings lines earlier other) :
    ∀ earlier other, ¬ FatalAt settings (lines.take index) earlier other := by
  intro earlier other fatal
  have before : earlier < index := by
    rcases fatal with ⟨_, found, -⟩
    have bound := (List.getElem?_eq_some_iff.mp found).1
    rw [List.length_take] at bound
    omega
  have whole := fatal.append (lines.drop index)
  rw [List.take_append_drop] at whole
  exact first earlier before other whole

/-- The first fatal line decides the failure, and the log ends with its reports. -/
theorem takeLines_of_fatal {index : Nat} {failure : ConversionFailure}
    (fatal : FatalAt settings lines index failure)
    (first : ∀ earlier < index, ∀ other, ¬ FatalAt settings lines earlier other) :
    ∃ log, takeLines settings lines = .error ⟨failure, log⟩ ∧
      log.toList = events settings (lines.take (index + 1)) := by
  rcases fatal with ⟨line, here, stops⟩
  rcases List.getElem?_eq_some_iff.mp here with ⟨inside, equal⟩
  rcases takeLines_of_passable (passable_take first) with ⟨progress, done, reached⟩
  rcases reached.step_of_stops stops with ⟨log, stopped, reports⟩
  have divided : lines = lines.take index ++ line :: lines.drop (index + 1) := by
    rw [← equal, ← List.drop_eq_getElem_cons inside, List.take_append_drop]
  have extended : lines.take index ++ [line] = lines.take (index + 1) := by
    rw [List.take_add_one, here, Option.toList_some]
  refine ⟨log, ?_, extended ▸ reports⟩
  rw [divided, takeLines_append done, stopped]
  rfl

/-- Either no line is fatal, or there is a first one. -/
theorem passable_or_first_fatal (settings : Settings) (lines : List Bytes) :
    (∀ index failure, ¬ FatalAt settings lines index failure) ∨
      ∃ index failure, FatalAt settings lines index failure ∧
        ∀ earlier < index, ∀ other, ¬ FatalAt settings lines earlier other := by
  classical
  by_cases some : ∃ index, ∃ failure, FatalAt settings lines index failure
  · rcases Nat.find_spec some with ⟨failure, fatal⟩
    refine Or.inr ⟨Nat.find some, failure, fatal, ?_⟩
    intro earlier before other prior
    exact Nat.find_min some before ⟨other, prior⟩
  · refine Or.inl fun index failure fatal => ?_
    exact some ⟨index, failure, fatal⟩

theorem result_of_passable {bytes : Bytes}
    (passable : ∀ index failure, ¬ FatalAt settings (Split.lines bytes) index failure) :
    ∃ progress, (convert settings { bytes }).result = .ok ⟨progress.store, progress.tally⟩ ∧
      Reached settings (Split.lines bytes) progress := by
  rcases takeLines_of_passable passable with ⟨progress, done, reached⟩
  refine ⟨progress, ?_, reached⟩
  rw [convert, Source.lines, done]

theorem result_of_fatal {bytes : Bytes} {index : Nat} {failure : ConversionFailure}
    (fatal : FatalAt settings (Split.lines bytes) index failure)
    (first : ∀ earlier < index, ∀ other, ¬ FatalAt settings (Split.lines bytes) earlier other) :
    (convert settings { bytes }).result = .error failure := by
  rcases takeLines_of_fatal fatal first with ⟨log, stopped, -⟩
  rw [convert, Source.lines, stopped]

/-- A conversion succeeds when none of its lines is fatal.  It then yields the words of
all records in their order and counts every line by its kind.  Otherwise it fails in the
way of the first fatal line. -/
theorem convert_decided_by_lines (settings : Settings) (bytes : Bytes) :
    Split.LinesOf bytes (Split.lines bytes) ∧
    ((∃ listing, (convert settings { bytes }).result = .ok listing) ↔
      ∀ index failure, ¬ FatalAt settings (Split.lines bytes) index failure) ∧
    (∀ listing, (convert settings { bytes }).result = .ok listing →
      listing.store.toList = (records settings (Split.lines bytes)).map Word.pack ∧
      listing.store.limit = settings.capacity ∧
      listing.tally = tallyOf settings (Split.lines bytes) ∧
      listing.tally.records + listing.tally.comments + listing.tally.unlisted =
        listing.tally.lines ∧
      listing.tally.records = listing.store.size ∧
      listing.store.size ≤ settings.capacity) ∧
    (∀ failure, (convert settings { bytes }).result = .error failure ↔
      ∃ index, FatalAt settings (Split.lines bytes) index failure ∧
        ∀ earlier < index, ∀ other, ¬ FatalAt settings (Split.lines bytes) earlier other) := by
  refine ⟨Split.linesOf_iff.mpr rfl, ?_⟩
  rcases passable_or_first_fatal settings (Split.lines bytes) with passable | fatal
  · rcases result_of_passable passable with ⟨progress, succeeded, reached⟩
    have fits := progress.store.size_le_limit
    rw [reached.limit] at fits
    have sizes : progress.tally.records = progress.store.words.size := by
      rw [reached.size_eq, reached.tally, tallyOf]
    refine ⟨⟨fun _ => passable, fun _ => ⟨_, succeeded⟩⟩, ?_, ?_⟩
    · intro listing result
      cases Except.ok.inj (succeeded.symm.trans result)
      exact ⟨reached.words, reached.limit, reached.tally, reached.total, sizes, fits⟩
    · intro failure
      constructor
      · intro result
        cases succeeded.symm.trans result
      · rintro ⟨index, fatal, -⟩
        exact absurd fatal (passable index failure)
  · rcases fatal with ⟨index, failure, fatal, first⟩
    have failed := result_of_fatal fatal first
    refine ⟨⟨?_, fun passable => absurd fatal (passable index failure)⟩, ?_, ?_⟩
    · rintro ⟨listing, result⟩
      cases failed.symm.trans result
    · intro listing result
      cases failed.symm.trans result
    · intro other
      constructor
      · intro result
        cases Except.error.inj (failed.symm.trans result)
        exact ⟨index, fatal, first⟩
      · rintro ⟨earliest, fatal, first⟩
        exact result_of_fatal fatal first

/-- A comment and two records. -/
def crowded : Bytes :=
  Utf8.encode ("# ADDR\n" ++
    " B6?  ?F 0001 0001 110 01 ???? ?? 0010 0110 000 00 00 000 0000 ? 0 0 1 \n" ++
    " 104  F3 0001 0001 110 01 ???? ?? 0010 0110 000 00 00 000 0000 ? 0 0 1 # QA001:C2 A20\r\n")

def tight : Settings where
  capacity := 1

/-- The second record stops the conversion where there is room for only one. -/
theorem convert_crowded :
    ((convert tight { bytes := crowded }).result = .error (.capacity 3 ⟨1⟩) ∧
      ∃ index, FatalAt tight (Split.lines crowded) index (.capacity 3 ⟨1⟩) ∧
        ∀ earlier < index, ∀ other, ¬ FatalAt tight (Split.lines crowded) earlier other) ∧
    ∃ listing, (convert {} { bytes := crowded }).result = .ok listing ∧
      listing.store.limit = 4096 ∧
      listing.tally = { lines := 3, records := 2, comments := 1, unlisted := 0 } := by
  have failed : (convert tight { bytes := crowded }).result = .error (.capacity 3 ⟨1⟩) := by
    decide +kernel
  have succeeded : (convert {} { bytes := crowded }).result.isOk := by decide +kernel
  have tally : tallyOf {} (Split.lines crowded) =
      { lines := 3, records := 2, comments := 1, unlisted := 0 } := by
    decide +kernel
  refine ⟨⟨failed, ((convert_decided_by_lines tight crowded).2.2.2 _).mp failed⟩, ?_⟩
  cases result : (convert {} { bytes := crowded }).result with
  | error failure =>
      rw [result] at succeeded
      cases succeeded
  | ok listing =>
      have facts := (convert_decided_by_lines {} crowded).2.2.1 listing result
      exact ⟨listing, rfl, facts.2.1, facts.2.2.1.trans tally⟩

end Conversion

end Microcode
