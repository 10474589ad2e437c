import Microcode.Listing.Line

namespace Microcode

/-!
What it takes for a line to be a record, and where its fields stand in the line.
-/

namespace Field

/-- The octets in the columns of a field, for any line. -/
def slice (field : Field) (line : Bytes) : Bytes :=
  (line.drop field.column).take field.width

/-- The last separator column follows all fields. -/
theorem column_add_width_le (field : Field) : field.column + field.width ≤ 70 := by
  cases field <;> decide

end Field

/-- A run of columns is what the line holds there, and blanks for the rest. -/
theorem map_getD_range' (line : Bytes) (start count : Nat) :
    (List.range' start count).map (line.getD · Octet.blank) =
      (line.drop start).take count ++
        List.replicate (count - (line.length - start)) Octet.blank := by
  apply List.ext_getElem
  · simp only [List.length_map, List.length_range', List.length_append, List.length_take,
      List.length_drop, List.length_replicate]
    omega
  · intro index inside _
    rw [List.length_map, List.length_range'] at inside
    by_cases held : start + index < line.length
    · have taken : index < ((line.drop start).take count).length := by
        rw [List.length_take, List.length_drop]
        omega
      simp [List.getElem_append_left taken, held]
    · have taken : ((line.drop start).take count).length ≤ index := by
        rw [List.length_take, List.length_drop]
        omega
      simp [List.getElem_append_right taken, Nat.le_of_not_lt held]

namespace Line

/-- A line is left as it is, or it has a carriage return at its end which is all that is
dropped.  It may have further ones in front of that. -/
theorem dropReturn_eq_iff {line rest : Bytes} :
    dropReturn line = rest ↔
      line = rest ++ [Octet.carriageReturn] ∨
        line = rest ∧ line.getLast? ≠ some Octet.carriageReturn := by
  unfold dropReturn
  by_cases last : line.getLast? = some Octet.carriageReturn
  · rw [if_pos last]
    constructor
    · rintro rfl
      rcases List.getLast?_eq_some_iff.mp last with ⟨front, rfl⟩
      exact Or.inl (by rw [List.dropLast_concat])
    · rintro (rfl | ⟨-, bare⟩)
      · exact List.dropLast_concat
      · exact absurd last bare
  · rw [if_neg last]
    constructor
    · rintro rfl
      exact Or.inr ⟨rfl, last⟩
    · rintro (rfl | ⟨same, -⟩)
      · exact absurd List.getLast?_concat last
      · exact same

theorem dropReturn_eq_self {line : Bytes} (bare : line.getLast? ≠ some Octet.carriageReturn) :
    dropReturn line = line :=
  dropReturn_eq_iff.mpr (Or.inr ⟨rfl, bare⟩)

theorem dropReturn_concat (line : Bytes) : dropReturn (line ++ [Octet.carriageReturn]) = line :=
  dropReturn_eq_iff.mpr (Or.inl rfl)

theorem eq_dropReturn_or_concat (line : Bytes) :
    line = dropReturn line ∨ line = dropReturn line ++ [Octet.carriageReturn] :=
  (dropReturn_eq_iff.mp rfl).symm.imp_left And.left

theorem dropReturn_prefix (line : Bytes) : dropReturn line <+: line := by
  rcases eq_dropReturn_or_concat line with bare | ended
  · exact bare ▸ List.prefix_rfl
  · exact ⟨_, ended.symm⟩

/-- A reading begins by dropping a carriage return, and does not look at it again. -/
theorem classify_congr (accepted : TagSet) (strictness : Strictness) {line other : Bytes}
    (same : dropReturn line = dropReturn other) :
    classify accepted strictness line = classify accepted strictness other := by
  simp only [classify, same]

/-! ## The four outcomes -/

theorem classify_of_hash (accepted : TagSet) (strictness : Strictness) {line : Bytes}
    (opens : (dropReturn line).head? = some Octet.hash) :
    classify accepted strictness line = .ok .comment := by
  rw [classify, if_pos opens]

theorem classify_of_not_blank (accepted : TagSet) (strictness : Strictness) {line : Bytes}
    (opens : (dropReturn line).head? ≠ some Octet.hash)
    (filled : ¬ ∀ column ∈ Column.separators, (dropReturn line)[column]? = some Octet.blank) :
    classify accepted strictness line = .error .format := by
  rw [classify, if_neg opens, dif_neg filled]

/-- The first separator column keeps a record line from being a comment. -/
theorem head?_ne_hash (record : Record) : record.octets.head? ≠ some Octet.hash := by
  rw [List.head?_eq_getElem?, record.blanks 0 (by decide)]
  decide

/-- Once the separators are in order, the version decides, and then the strictness. -/
theorem classify_of_record (accepted : TagSet) (strictness : Strictness) {line : Bytes}
    {record : Record} (octets : record.octets = dropReturn line) :
    classify accepted strictness line =
      if accepted.contains record.version then
        match strictness, record.fault? with
        | .strict, some fault => .error (.field fault)
        | _, _ => .ok (.record record)
      else .ok (.unlisted (Utf8.decode record.version)) := by
  have opens : (dropReturn line).head? ≠ some Octet.hash := octets ▸ head?_ne_hash record
  have blanks : ∀ column ∈ Column.separators, (dropReturn line)[column]? = some Octet.blank :=
    octets ▸ record.blanks
  have same : (⟨dropReturn line, blanks⟩ : Record) = record := by
    cases record
    cases octets
    rfl
  rw [classify, if_neg opens, dif_pos blanks, same]
  dsimp only
  cases accepted.contains record.version with
  | false => rfl
  | true => cases strictness <;> cases record.fault? <;> rfl

/-- A line opens with a number sign, or it can be taken as a record, or it can be
neither. -/
theorem comment_or_record_or_neither (line : Bytes) :
    (dropReturn line).head? = some Octet.hash ∨
      (∃ record : Record, record.octets = dropReturn line) ∨
      (dropReturn line).head? ≠ some Octet.hash ∧
        ¬ ∀ column ∈ Column.separators, (dropReturn line)[column]? = some Octet.blank := by
  by_cases opens : (dropReturn line).head? = some Octet.hash
  · exact Or.inl opens
  by_cases blanks : ∀ column ∈ Column.separators, (dropReturn line)[column]? = some Octet.blank
  · exact Or.inr (Or.inl ⟨⟨dropReturn line, blanks⟩, rfl⟩)
  · exact Or.inr (Or.inr ⟨opens, blanks⟩)

/-- A line is a record when its separator columns are blank, its version is accepted
and, under strict reading, no field is at fault. -/
theorem classify_eq_record_iff {accepted : TagSet} {strictness : Strictness} {line : Bytes}
    {record : Record} :
    classify accepted strictness line = .ok (.record record) ↔
      record.octets = dropReturn line ∧ accepted.contains record.version ∧
        (strictness = .strict → record.fault? = none) := by
  constructor
  · intro found
    rcases comment_or_record_or_neither line with opens | ⟨read, octets⟩ | ⟨opens, filled⟩
    · rw [classify_of_hash accepted strictness opens] at found
      cases found
    · rw [classify_of_record accepted strictness octets] at found
      by_cases listed : accepted.contains read.version
      · rw [if_pos listed] at found
        cases strictness with
        | lenient =>
            cases found
            exact ⟨octets, listed, fun impossible => nomatch impossible⟩
        | strict =>
            cases faults : read.fault? with
            | some fault => simp [faults] at found
            | none =>
                simp only [faults] at found
                cases found
                exact ⟨octets, listed, fun _ => faults⟩
      · rw [if_neg listed] at found
        cases found
    · rw [classify_of_not_blank accepted strictness opens filled] at found
      cases found
  · rintro ⟨octets, listed, faultless⟩
    rw [classify_of_record accepted strictness octets, if_pos listed]
    cases strictness with
    | lenient => rfl
    | strict => rw [faultless rfl]

/-- A line is passed over when its separator columns are blank and its version is not accepted,
whatever is in its fields. -/
theorem classify_eq_unlisted_iff {accepted : TagSet} {strictness : Strictness} {line : Bytes}
    {tag : String} :
    classify accepted strictness line = .ok (.unlisted tag) ↔
      ∃ record : Record, record.octets = dropReturn line ∧ ¬ accepted.contains record.version ∧
        tag = Utf8.decode record.version := by
  constructor
  · intro found
    rcases comment_or_record_or_neither line with opens | ⟨read, octets⟩ | ⟨opens, filled⟩
    · rw [classify_of_hash accepted strictness opens] at found
      cases found
    · rw [classify_of_record accepted strictness octets] at found
      by_cases listed : accepted.contains read.version
      · rw [if_pos listed] at found
        split at found <;> cases found
      · rw [if_neg listed] at found
        cases found
        exact ⟨read, octets, listed, rfl⟩
    · rw [classify_of_not_blank accepted strictness opens filled] at found
      cases found
  · rintro ⟨record, octets, missing, rfl⟩
    rw [classify_of_record accepted strictness octets, if_neg missing]

/-! ## Strict and lenient readings -/

/-- What a strict reading makes of a line that is read leniently. -/
def checked : Line → Except LineFault Line
  | record found =>
      match found.fault? with
      | some fault => .error (.field fault)
      | none => .ok (.record found)
  | other => .ok other

/-- A strict reading is a lenient one with a check behind it. -/
theorem classify_strict (accepted : TagSet) (line : Bytes) :
    classify accepted .strict line = classify accepted .lenient line >>= checked := by
  rcases comment_or_record_or_neither line with opens | ⟨read, octets⟩ | ⟨opens, filled⟩
  · rw [classify_of_hash accepted .strict opens, classify_of_hash accepted .lenient opens]
    rfl
  · rw [classify_of_record accepted .strict octets, classify_of_record accepted .lenient octets]
    cases accepted.contains read.version with
    | false => rfl
    | true =>
        change _ = checked (.record read)
        rw [checked, if_pos rfl]
        cases read.fault? <;> rfl
  · rw [classify_of_not_blank accepted .strict opens filled,
      classify_of_not_blank accepted .lenient opens filled]
    rfl

/-- A lenient reading finds no fault in a field. -/
theorem classify_lenient_ne_field (accepted : TagSet) (line : Bytes) (fault : FieldFault) :
    classify accepted .lenient line ≠ .error (.field fault) := by
  intro found
  rcases comment_or_record_or_neither line with opens | ⟨read, octets⟩ | ⟨opens, filled⟩
  · rw [classify_of_hash accepted .lenient opens] at found
    cases found
  · rw [classify_of_record accepted .lenient octets] at found
    cases listed : accepted.contains read.version <;> simp [listed] at found
  · rw [classify_of_not_blank accepted .lenient opens filled] at found
    cases found

/-! ## The columns of a record line -/

variable {accepted : TagSet} {strictness : Strictness} {text : Bytes} {record : Record}

/-- Only a carriage return at the very end can be missing from a record. -/
theorem octets_prefix (found : classify accepted strictness text = .ok (.record record)) :
    record.octets <+: text :=
  (classify_eq_record_iff.mp found).1 ▸ dropReturn_prefix text

theorem getElem?_of_record (found : classify accepted strictness text = .ok (.record record))
    {column : Nat} (inside : column ≤ 70) : text[column]? = record.octets[column]? := by
  have long := record.lt_length
  have here : column < record.octets.length := by omega
  rcases octets_prefix found with ⟨rest, whole⟩
  rw [← whole, List.getElem?_append_left here]

theorem slice_of_record (found : classify accepted strictness text = .ok (.record record))
    (field : Field) : field.slice text = record.text field := by
  have long := record.lt_length
  have fits := field.column_add_width_le
  rcases octets_prefix found with ⟨rest, whole⟩
  rw [Field.slice, Record.text, ← whole, List.drop_append_of_le_length (by omega),
    List.take_append_of_le_length (by rw [List.length_drop]; omega)]

end Line

end Microcode
