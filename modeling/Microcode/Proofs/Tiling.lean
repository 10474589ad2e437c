import Microcode.Proofs.Assembly
import Microcode.Proofs.Reports
import Mathlib.Data.List.Basic

namespace Microcode

/-!
Record lines and layouts.

Fields and separators share out the columns of a record line up to the last separator, with
none left over.  So a record line is the layout of its own fields with what follows them, and
each layout is a record line unless its version is not accepted.
-/

namespace Field

theorem getElem?_slice (field : Field) (octets : Bytes) {column : Nat}
    (left : field.column ≤ column) (right : column < field.column + field.width) :
    (field.slice octets)[column - field.column]? = octets[column]? := by
  rw [slice, List.getElem?_take_of_lt (by omega), List.getElem?_drop, Nat.add_sub_cancel' left]

end Field

namespace Column

/-- No column in front of the comment is left over. -/
theorem separator_or_field {column : Nat} (inside : column < Column.comment) :
    column ∈ separators ∨
      ∃ field ∈ Field.all, field.column ≤ column ∧ column < field.column + field.width := by
  revert column
  decide

end Column

namespace Line

/-- Only the last octet can be dropped. -/
theorem dropReturn_append (front : Bytes) {tail : Bytes} (more : tail ≠ []) :
    dropReturn (front ++ tail) = front ++ dropReturn tail := by
  unfold dropReturn
  rw [List.getLast?_append_of_ne_nil front more, List.dropLast_append_of_ne_nil more]
  split <;> rfl

end Line

namespace Layout

/-- A carriage return at the end of a layout belongs to its tail. -/
theorem dropReturn_line (texts : Field → Bytes) (tail : Bytes) :
    Line.dropReturn (line texts tail) = line texts (Line.dropReturn tail) := by
  unfold line
  cases tail with
  | nil => exact Line.dropReturn_append _ (List.cons_ne_nil _ _)
  | cons octet tail =>
      rw [List.append_cons, Line.dropReturn_append _ (List.cons_ne_nil _ _), ← List.append_cons]

/-- A record line has nothing between its fields but blanks. -/
theorem octets_eq_line (record : Record) :
    record.octets = line record.text (record.octets.drop Column.comment) := by
  have widths := record.length_text
  let tail := record.octets.drop Column.comment
  change record.octets = line record.text tail
  apply List.ext_getElem?
  intro column
  by_cases inside : column < Column.comment
  · rcases Column.separator_or_field inside with separator | ⟨field, -, left, right⟩
    · rw [record.blanks column separator, blanks_line widths tail column separator]
    · have same : field.slice (line record.text tail) = field.slice record.octets :=
        slice_line widths tail field
      rw [← field.getElem?_slice record.octets left right,
        ← field.getElem?_slice (line record.text tail) left right, same]
  · have behind : 71 ≤ column := Nat.le_of_not_lt inside
    have moved : 70 + (column - 71 + 1) = column := by omega
    have here := congrArg (·[column - 71 + 1]?) (drop_line widths tail)
    rw [List.getElem?_drop, moved, List.getElem?_cons_succ, List.getElem?_drop] at here
    rw [here, Nat.add_sub_cancel' behind]

/-- Laid out fields are read back, provided that the version is accepted.  Conversely each
record line is a layout of the fields that are read from it, once a carriage return at its
end has been removed. -/
theorem record_lines_are_layouts (accepted : TagSet) :
    (∀ texts : Field → Bytes, (∀ field, (texts field).length = field.width) → ∀ tail,
      (∃ tag ∈ accepted.tags, Utf8.encode tag = Line.paddedTag (line texts tail)) →
        ∃ record, Line.classify accepted .lenient (line texts tail) = .ok (.record record) ∧
          ∀ field, record.text field = texts field) ∧
    (∀ strictness text record,
      Line.classify accepted strictness text = .ok (.record record) →
        (∀ field, (record.text field).length = field.width) ∧
        ∃ tail, Line.dropReturn text = line record.text tail ∧
          (text = line record.text tail ∨
            text = line record.text tail ++ [Octet.carriageReturn])) := by
  constructor
  · intro texts widths tail listed
    let found := record texts widths (Line.dropReturn tail)
    have octets : found.octets = Line.dropReturn (line texts tail) :=
      (dropReturn_line texts tail).symm
    refine ⟨found, Line.classify_eq_record_iff.mpr ⟨octets, ?_, ?_⟩, text_record widths _⟩
    · rw [Line.version_eq_paddedTag octets]
      exact TagSet.contains_iff.mpr listed
    · intro impossible
      cases impossible
  · intro strictness text record found
    have octets := (Line.classify_eq_record_iff.mp found).1
    have whole := octets.symm.trans (octets_eq_line record)
    refine ⟨record.length_text, record.octets.drop Column.comment, whole, ?_⟩
    rw [← whole]
    exact Line.eq_dropReturn_or_concat text

/-- Fields that are filled with carriage returns. -/
def returns (field : Field) : Bytes :=
  List.replicate field.width Octet.carriageReturn

/-- Only the carriage return behind the last blank is taken for the end of the line. -/
theorem returns_are_laid_out :
    (∀ field, (returns field).length = field.width) ∧
    (∃ tag ∈ TagSet.standard.tags,
      Utf8.encode tag = Line.paddedTag (line returns [Octet.carriageReturn])) ∧
    ∃ record, Line.classify .standard .lenient (line returns [Octet.carriageReturn]) =
        .ok (.record record) ∧
      record.text .pk = [Octet.carriageReturn] ∧
      ∃ tail, Line.dropReturn (line returns [Octet.carriageReturn]) = line record.text tail := by
  have widths : ∀ field, (returns field).length = field.width := fun field =>
    List.length_replicate
  have listed : ∃ tag ∈ TagSet.standard.tags,
      Utf8.encode tag = Line.paddedTag (line returns [Octet.carriageReturn]) :=
    ⟨"   ", TagSet.mem_ofList.mpr List.mem_cons_self, by decide⟩
  rcases record_lines_are_layouts .standard with ⟨accepts, recovers⟩
  rcases accepts returns widths _ listed with ⟨record, found, texts⟩
  rcases recovers .lenient _ record found with ⟨-, tail, whole, -⟩
  exact ⟨widths, listed, record, found, texts .pk, tail, whole⟩

end Layout

end Microcode
