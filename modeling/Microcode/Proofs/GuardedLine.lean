import Microcode.Proofs.Leftmost

namespace Microcode
namespace Guarded

/-!
Lines under guard.

The fields and the comment of a line are reached here through slices, and every slice is guarded:
where it would go past the end of the line there is none, and then the whole reading yields nothing.
So is the row in which the columns of a field are looked up.  A bit group is searched and then
looked up again at the offset that was found, under guard as well.  Separators and versions are
looked up column by column, for which a line may be of any length.

For a record the guards are never needed, and what is read is the same as without them.  All of this
rests on the last separator column, which stands behind the last field.
-/

/-- The items from one index up to another. -/
def slice {Item : Type} (items : List Item) (first last : Nat) : Option (List Item) :=
  if first ≤ last ∧ last ≤ items.length then some ((items.drop first).take (last - first))
  else none

theorem slice_eq_none_iff {Item : Type} {items : List Item} {first last : Nat}
    (ordered : first ≤ last) : slice items first last = none ↔ items.length < last := by
  unfold slice
  split
  case isTrue inside => exact iff_of_false (Option.some_ne_none _) (Nat.not_lt.mpr inside.2)
  case isFalse outside =>
    exact iff_of_true rfl (Nat.lt_of_not_le fun inside => outside ⟨ordered, inside⟩)

theorem slice_eq_some {Item : Type} {items : List Item} {first last : Nat}
    (ordered : first ≤ last) (inside : last ≤ items.length) :
    slice items first last = some ((items.drop first).take (last - first)) :=
  if_pos ⟨ordered, inside⟩

/-- The octets in the columns of a field, which stand in its row of the table. -/
def text (octets : Bytes) (field : Field) : Option Bytes := do
  let row ← Field.table[field.ctorIdx]?
  slice octets row.column (row.column + row.width)

/-- The text in the comment columns, as far as the line goes. -/
def comment (octets : Bytes) : Option String :=
  (slice octets Column.comment (min octets.length Column.version)).map fun text =>
    Blank.trimEnd (Utf8.decode text)

/-- The numerals among some fields whose digits end before their columns do. -/
def truncated (octets : Bytes) : List Field → Option (List Field)
  | [] => some []
  | field :: fields =>
      if field.kind = .hex then do
        let digits ← text octets field
        let others ← truncated octets fields
        return if Hex.consumed digits < field.width then field :: others else others
      else truncated octets fields

/-- The first octet that a bit group may not hold, which is looked up again once it is found. -/
def groupFault (group : Bytes) : Option (Option DigitFault) :=
  match group.findIdx? fun octet => !Binary.isGroupOctet octet with
  | none => some none
  | some offset => (group[offset]?).map fun octet => some (.notBit octet offset)

def digitFault (kind : FieldKind) (text : Bytes) : Option (Option DigitFault) :=
  match kind with
  | .hex => some (Record.digitFault? .hex text)
  | .bits => groupFault text

/-- The first fault in some fields. -/
def fault (octets : Bytes) : List Field → Option (Option FieldFault)
  | [] => some none
  | field :: fields => do
      let found ← text octets field
      match ← digitFault field.kind found with
      | some cause => return some ⟨field, cause⟩
      | none => fault octets fields

def classify (accepted : TagSet) (strictness : Strictness) (raw : Bytes) :
    Option (Except LineFault Line) :=
  let octets := Line.dropReturn raw
  if octets.head? = some Octet.hash then some (.ok .comment)
  else if blanks : ∀ column ∈ Column.separators, octets[column]? = some Octet.blank then
    let found : Record := ⟨octets, blanks⟩
    if !accepted.contains found.version then
      some (.ok (.unlisted (Utf8.decode found.version)))
    else
      match strictness with
      | .lenient => some (.ok (.record found))
      | .strict => do
          match ← fault octets Field.all with
          | some fault => return .error (.field fault)
          | none => return .ok (.record found)
  else some (.error .format)

/-- Every field has a row, so only the line can be too short. -/
theorem text_eq_slice (octets : Bytes) (field : Field) :
    text octets field = slice octets field.column (field.column + field.width) := by
  rw [text, field.getElem?_ctorIdx_table]
  rfl

theorem text_eq_none_iff {octets : Bytes} {field : Field} :
    text octets field = none ↔ octets.length < field.column + field.width := by
  rw [text_eq_slice]
  exact slice_eq_none_iff (Nat.le_add_right _ _)

/-! ## Records -/

section Records

variable (record : Record)

theorem text_record (field : Field) : text record.octets field = some (record.text field) := by
  have long := record.lt_length
  have fits := field.column_add_width_le
  rw [text_eq_slice, slice_eq_some (Nat.le_add_right _ _) (by omega), Nat.add_sub_cancel_left]
  rfl

theorem comment_record : comment record.octets = some record.comment := by
  have long := record.lt_length
  have ordered : Column.comment ≤ min record.octets.length Column.version := by
    rw [Nat.le_min]
    exact ⟨long, by decide⟩
  have whole : record.octets.take Column.version =
      record.octets.take (min record.octets.length Column.version) := by
    rw [Nat.min_comm, ← List.take_eq_take_min]
  rw [comment, slice_eq_some ordered (Nat.min_le_left _ _), Option.map_some, Record.comment, whole,
    List.drop_take]

theorem truncated_record (fields : List Field) :
    truncated record.octets fields = some (fields.filter fun field =>
      field.kind = .hex ∧ Hex.consumed (record.text field) < field.width) := by
  induction fields with
  | nil => rfl
  | cons field fields ih =>
      rw [truncated, List.filter_cons, text_record, ih]
      by_cases numeral : field.kind = .hex
      · simp only [numeral, true_and, if_true, decide_eq_true_eq]
        rfl
      · simp only [numeral, false_and, if_false, decide_false, Bool.false_eq_true]

/-- An octet that was found in a group is found there again. -/
theorem groupFault_eq (group : Bytes) : groupFault group = some (Binary.fault? group) := by
  unfold groupFault
  cases found : group.findIdx? fun octet => !Binary.isGroupOctet octet with
  | none =>
      have clean : Binary.fault? group = none := by
        rw [Binary.fault?_eq_none_iff]
        simpa using found
      exact congrArg some clean.symm
  | some offset =>
      rcases List.findIdx?_eq_some_iff_getElem.mp found with ⟨inside, foreign, clean⟩
      have divided : group = group.take offset ++ group[offset] :: group.drop (offset + 1) := by
        rw [← List.drop_eq_getElem_cons, List.take_append_drop]
      have admitted : ∀ octet ∈ group.take offset, FieldKind.bits.admits octet := by
        intro octet member
        rcases List.mem_take_iff_getElem.mp member with ⟨earlier, before, rfl⟩
        simpa [FieldKind.admits] using clean earlier (by omega)
      have refused : ¬ FieldKind.bits.admits group[offset] := by
        simpa [FieldKind.admits] using foreign
      have stopped := Record.digitFault?_append admitted refused (group.drop (offset + 1))
      rw [← divided, List.length_take_of_le (Nat.le_of_lt inside)] at stopped
      change Binary.fault? group = some (.notBit group[offset] offset) at stopped
      dsimp only
      rw [List.getElem?_eq_getElem inside, Option.map_some, stopped]

theorem digitFault_eq (kind : FieldKind) (text : Bytes) :
    digitFault kind text = some (Record.digitFault? kind text) := by
  cases kind with
  | hex => rfl
  | bits => exact groupFault_eq text

theorem fault_record (fields : List Field) :
    fault record.octets fields = some (fields.findSome? fun field =>
      (Record.digitFault? field.kind (record.text field)).map fun cause => ⟨field, cause⟩) := by
  induction fields with
  | nil => rfl
  | cons field fields ih =>
      rw [fault, List.findSome?_cons, text_record]
      simp only [Option.bind_eq_bind, Option.bind_some, digitFault_eq, ih]
      cases Record.digitFault? field.kind (record.text field) <;> rfl

end Records

/-- A line is a comment, or a separator is missing, or the line is long enough for all fields. -/
theorem comment_or_format_or_long (accepted : TagSet) (strictness : Strictness) (line : Bytes) :
    Line.classify accepted strictness line = .ok .comment ∨
      Line.classify accepted strictness line = .error .format ∨
      Column.comment ≤ (Line.dropReturn line).length := by
  rcases Line.comment_or_record_or_neither line with opens | ⟨read, octets⟩ | ⟨opens, filled⟩
  · exact Or.inl (Line.classify_of_hash accepted strictness opens)
  · exact Or.inr (Or.inr (octets ▸ read.lt_length))
  · exact Or.inr (Or.inl (Line.classify_of_not_blank accepted strictness opens filled))

theorem classify_eq (accepted : TagSet) (strictness : Strictness) (raw : Bytes) :
    classify accepted strictness raw = some (Line.classify accepted strictness raw) := by
  by_cases opens : (Line.dropReturn raw).head? = some Octet.hash
  · rw [classify, if_pos opens, Line.classify, if_pos opens]
  by_cases blanks :
      ∀ column ∈ Column.separators, (Line.dropReturn raw)[column]? = some Octet.blank
  · have checked := fault_record ⟨Line.dropReturn raw, blanks⟩ Field.all
    rw [classify, if_neg opens, dif_pos blanks, Line.classify, if_neg opens, dif_pos blanks]
    dsimp only
    cases accepted.contains (Record.version _) with
    | false => rfl
    | true =>
        cases strictness with
        | lenient => rfl
        | strict =>
            rw [checked, ← Record.fault?]
            cases Record.fault? ⟨Line.dropReturn raw, blanks⟩ <;> rfl
  · rw [classify, if_neg opens, dif_neg blanks, Line.classify, if_neg opens, dif_neg blanks]

end Guarded
end Microcode
