import Microcode.Proofs.Boundaries
import Microcode.Proofs.Resumption

namespace Microcode
namespace Conversion

/-!
Listings that cannot be read to their end.

A fault in reading leaves the last line unfinished, and no part of it has any influence.
So the conversion does what it does on the whole lines alone, except that it reports the
fault where it would have succeeded.
-/

variable {settings : Settings}

/-- What no line feed ends is not among the lines of a broken source. -/
theorem lines_of_fault {part rest : Bytes} (whole : Split.Whole part)
    (unbroken : Octet.lineFeed ∉ rest) (cause : String) :
    Source.lines { bytes := part ++ rest, fault := some cause } =
      Source.lines { bytes := part } := by
  change Split.ended (part ++ rest) = Split.lines part
  rw [Split.ended_append_of_whole whole, Split.ended_of_not_mem unbroken, List.append_nil]

theorem lines_wholePart (bytes : Bytes) (cause : String) :
    Source.lines { bytes, fault := some cause } =
      Source.lines { bytes := Split.wholePart bytes } := by
  have divided := lines_of_fault (Split.whole_wholePart bytes)
    (Split.lineFeed_not_mem_openPart bytes) cause
  rwa [Split.wholePart_append_openPart] at divided

/-- Where the whole lines fail, the fault makes no difference; where they succeed, it takes
the place of the summary. -/
theorem convert_wholePart (settings : Settings) (bytes : Bytes) (cause : String) :
    (∃ halt : Halt,
      convert settings { bytes := Split.wholePart bytes } = ⟨halt.log, .error halt.failure⟩ ∧
      convert settings { bytes, fault := some cause } = ⟨halt.log, .error halt.failure⟩) ∨
    ∃ progress : Progress,
      convert settings { bytes := Split.wholePart bytes } =
        ⟨progress.log.push (.finished progress.tally), .ok ⟨progress.store, progress.tally⟩⟩ ∧
      convert settings { bytes, fault := some cause } =
        ⟨progress.log, .error (.reading cause)⟩ := by
  have same := congrArg (takeLines settings) (lines_wholePart bytes cause)
  cases taken : takeLines settings (Source.lines { bytes := Split.wholePart bytes }) with
  | error halt =>
      exact Or.inl ⟨halt, convert_of_error taken, convert_of_error (same.trans taken)⟩
  | ok progress =>
      exact Or.inr ⟨progress, convert_of_ok taken rfl, convert_of_fault (same.trans taken) rfl⟩

/-- An unfinished line has no influence, whatever it would have been. -/
theorem convert_unfinished (settings : Settings) (bytes : Bytes) (cause : String) {rest : Bytes}
    (unbroken : Octet.lineFeed ∉ rest) :
    convert settings { bytes := Split.wholePart bytes ++ rest, fault := some cause } =
      convert settings { bytes, fault := some cause } := by
  rw [convert, convert, lines_of_fault (Split.whole_wholePart bytes) unbroken,
    lines_wholePart bytes cause]

/-- A fault in reading never leads to a result from part of a listing.  Any failure among
the whole lines comes first, and is reported as if there were nothing else.  Otherwise the
fault is reported, after the events of the whole lines.  Whatever stands behind these, as
long as no line feed ends it, the outcome is the same. -/
theorem fault_after_whole_lines (settings : Settings) (bytes : Bytes) (cause : String) :
    Split.LongestWhole bytes (Split.wholePart bytes) ∧
    (∀ listing, (convert settings { bytes, fault := some cause }).result ≠ .ok listing) ∧
    (∀ failure,
      (convert settings { bytes := Split.wholePart bytes }).result = .error failure →
        convert settings { bytes, fault := some cause } =
          convert settings { bytes := Split.wholePart bytes }) ∧
    (∀ listing,
      (convert settings { bytes := Split.wholePart bytes }).result = .ok listing →
        (convert settings { bytes, fault := some cause }).result = .error (.reading cause) ∧
        (convert settings { bytes := Split.wholePart bytes }).log =
          (convert settings { bytes, fault := some cause }).log.push
            (.finished listing.tally)) ∧
    (∀ rest, Octet.lineFeed ∉ rest →
      convert settings { bytes := Split.wholePart bytes ++ rest, fault := some cause } =
        convert settings { bytes, fault := some cause }) := by
  rcases convert_wholePart settings bytes cause with
    ⟨halt, sound, broken⟩ | ⟨progress, sound, broken⟩
  · refine ⟨Split.longestWhole_wholePart bytes, ?_, ?_, ?_,
      fun _ => convert_unfinished settings bytes cause⟩
    · intro listing impossible
      rw [broken] at impossible
      cases impossible
    · intro failure _
      rw [broken, sound]
    · intro listing impossible
      rw [sound] at impossible
      cases impossible
  · refine ⟨Split.longestWhole_wholePart bytes, ?_, ?_, ?_,
      fun _ => convert_unfinished settings bytes cause⟩
    · intro listing impossible
      rw [broken] at impossible
      cases impossible
    · intro failure impossible
      rw [sound] at impossible
      cases impossible
    · intro listing succeeded
      rw [sound] at succeeded
      cases succeeded
      rw [broken, sound]
      exact ⟨rfl, rfl⟩

/-- A comment, and the beginning of a line that would be refused. -/
def cutOff : Bytes :=
  Utf8.encode "# ADDR\n 1"

/-- A line that is refused, and the beginning of a comment. -/
def refused : Bytes :=
  Utf8.encode " 1\n# ADD"

theorem fault_after_whole_lines_cutOff :
    ((convert {} { bytes := cutOff, fault := some "broken" }).result =
        .error (.reading "broken") ∧
      (convert {} { bytes := cutOff, fault := some "broken" }).log = #[] ∧
      (convert {} { bytes := cutOff }).result = .error (.format 2 " 1")) ∧
    (convert {} { bytes := refused, fault := some "broken" }).result =
      .error (.format 1 " 1") := by
  have sound : (convert {} { bytes := Split.wholePart cutOff }).result.isOk := by decide +kernel
  have failed : (convert {} { bytes := Split.wholePart refused }).result =
      .error (.format 1 " 1") := by
    decide +kernel
  refine ⟨⟨?_, by decide +kernel, by decide +kernel⟩, ?_⟩
  · cases found : (convert {} { bytes := Split.wholePart cutOff }).result with
    | error failure =>
        rw [found] at sound
        cases sound
    | ok listing => exact ((fault_after_whole_lines {} cutOff "broken").2.2.2.1 listing found).1
  · rw [(fault_after_whole_lines {} refused "broken").2.2.1 _ failed, failed]

end Conversion

end Microcode
