import Microcode.Listing.Layout
import Microcode.Proofs.Classification

namespace Microcode

/-!
Lines that are put together from the texts of their fields.

When every text has the width of its field, each one ends up in the columns of its field,
and each separator column gets a blank.  So such a line can be read as a record again.
-/

namespace Field

/-- The fields to the left of a field. -/
def before (field : Field) : List Field :=
  all.takeWhile (· ≠ field)

/-- The fields to the right of a field. -/
def behind (field : Field) : List Field :=
  (all.dropWhile (· ≠ field)).tail

theorem all_eq (field : Field) : all = field.before ++ field :: field.behind := by
  cases field <;> rfl

end Field

namespace Layout

/-- A field with the blanks before it. -/
def cell (texts : Field → Bytes) (field : Field) : Bytes :=
  List.replicate (gap field) Octet.blank ++ texts field

/-- The number of columns that some fields take, with the blanks before them. -/
def span : List Field → Nat
  | [] => 0
  | field :: fields => gap field + field.width + span fields

/-- A field starts behind the fields to its left and the blanks before it. -/
theorem span_before (field : Field) : span field.before + gap field = field.column := by
  cases field <;> rfl

/-- Every separator column but the last lies among the blanks before some field. -/
theorem separator_before {column : Nat} (member : column ∈ Column.separators) :
    column = 70 ∨ ∃ field ∈ Field.all, span field.before ≤ column ∧ column < field.column := by
  revert column
  decide

section Texts

variable {texts : Field → Bytes} (widths : ∀ field, (texts field).length = field.width)
  (tail : Bytes)

include widths

theorem length_cells (fields : List Field) :
    (fields.flatMap (cell texts)).length = span fields := by
  induction fields with
  | nil => rfl
  | cons field fields ih =>
      rw [List.flatMap_cons, List.length_append, ih, span, cell, List.length_append,
        List.length_replicate, widths]

/-- A line divided at the text of a field. -/
theorem line_eq (field : Field) :
    ∃ left right, line texts tail =
        left ++ List.replicate (gap field) Octet.blank ++ texts field ++ right ∧
      left.length = span field.before := by
  refine ⟨field.before.flatMap (cell texts),
    field.behind.flatMap (cell texts) ++ Octet.blank :: tail, ?_, length_cells widths _⟩
  change Field.all.flatMap (cell texts) ++ Octet.blank :: tail = _
  rw [field.all_eq, List.flatMap_append, List.flatMap_cons]
  simp [cell]

theorem slice_line (field : Field) : field.slice (line texts tail) = texts field := by
  rcases line_eq widths tail field with ⟨left, right, divided, length⟩
  have start : (left ++ List.replicate (gap field) Octet.blank).length = field.column := by
    rw [List.length_append, List.length_replicate, length, span_before]
  rw [Field.slice, divided, List.append_assoc _ (texts field), ← start, List.drop_left,
    ← widths field, List.take_left]

theorem getElem?_gap {field : Field} {column : Nat} (left : span field.before ≤ column)
    (right : column < field.column) : (line texts tail)[column]? = some Octet.blank := by
  rcases line_eq widths tail field with ⟨before, behind, divided, length⟩
  have start := span_before field
  have inside : column - before.length < gap field := by omega
  rw [divided, List.append_assoc, List.append_assoc, List.getElem?_append_right (by omega),
    List.getElem?_append_left (by rwa [List.length_replicate]),
    List.getElem?_replicate_of_lt inside]

/-- What follows the last separator column is the tail. -/
theorem drop_line : (line texts tail).drop 70 = Octet.blank :: tail := by
  have length : (Field.all.flatMap (cell texts)).length = 70 := length_cells widths Field.all
  change (Field.all.flatMap (cell texts) ++ Octet.blank :: tail).drop 70 = _
  rw [← length, List.drop_left]

theorem blanks_line :
    ∀ column ∈ Column.separators, (line texts tail)[column]? = some Octet.blank := by
  intro column member
  rcases separator_before member with rfl | ⟨field, -, left, right⟩
  · have here : ((line texts tail).drop 70)[0]? = some Octet.blank := by
      rw [drop_line widths, List.getElem?_cons_zero]
    rwa [List.getElem?_drop] at here
  · exact getElem?_gap widths tail left right

end Texts

/-- The record with the given texts in its fields. -/
def record (texts : Field → Bytes) (widths : ∀ field, (texts field).length = field.width)
    (tail : Bytes) : Record where
  octets := line texts tail
  blanks := blanks_line widths tail

section Records

variable {texts : Field → Bytes} (widths : ∀ field, (texts field).length = field.width)
  (tail : Bytes)

theorem text_record (field : Field) : (record texts widths tail).text field = texts field :=
  slice_line widths tail field

/-- The version columns start eleven columns into the tail. -/
theorem version_record :
    (record texts widths tail).version =
      (List.range Column.versionWidth).map fun offset => tail.getD (11 + offset) Octet.blank := by
  apply List.map_congr_left
  intro offset _
  have column : Column.version + offset = 70 + (11 + offset + 1) := by
    change 82 + offset = _
    omega
  have there : ((line texts tail).drop 70)[11 + offset + 1]? = tail[11 + offset]? := by
    rw [drop_line widths, List.getElem?_cons_succ]
  rw [List.getElem?_drop, ← column] at there
  change (line texts tail).getD _ _ = _
  rw [List.getD_eq_getElem?_getD, List.getD_eq_getElem?_getD, there]

end Records

end Layout

end Microcode
