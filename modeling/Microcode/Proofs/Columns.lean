import Microcode.Proofs.Identity
import Microcode.Proofs.Lines

namespace Microcode

/-!
The columns that decide about a line.

The fields and their separators take the columns up to 70, and the version takes three columns
behind the comment.  A reading looks at nothing else, and takes a line that ends early to go on
with blanks.  The comment has columns of its own and follows the same rule, as blanks at its end
are not part of it.
-/

namespace Line

/-- A line that reaches its last separator column, without a carriage return at its end. -/
structure Complete (line : Bytes) : Prop where
  long : 71 ≤ line.length
  bare : line.getLast? ≠ some Octet.carriageReturn

/-- Two lines that hold the same in the columns of the fields and of the version. -/
structure SameColumns (left right : Bytes) : Prop where
  fields : ∀ column ≤ 70, left[column]? = right[column]?
  version : ∀ column ∈ [82, 83, 84],
    left.getD column Octet.blank = right.getD column Octet.blank

/-- Two lines that hold the same in the columns of the comment. -/
def SameRemark (left right : Bytes) : Prop :=
  ∀ column ∈ List.range' 71 11, left.getD column Octet.blank = right.getD column Octet.blank

/-- A line with blanks up to the last column of its version. -/
def filled (line : Bytes) : Bytes :=
  line ++ List.replicate (85 - line.length) Octet.blank

end Line

/-- Blanks at the end of a comment are trimmed, even behind an ill-formed octet. -/
theorem Blank.trimEnd_decode_append (bytes : Bytes) (count : Nat) :
    trimEnd (Utf8.decode (bytes ++ List.replicate count Octet.blank)) =
      trimEnd (Utf8.decode bytes) := by
  induction count with
  | zero => rw [List.replicate_zero, List.append_nil]
  | succ count ih =>
      rw [List.replicate_succ', ← List.append_assoc, Utf8.decode_append_ascii _ (by decide),
        trimEnd, dropTrailing_push (by decide)]
      exact ih

/-! ## Records -/

namespace Record

/-- What two records have in common when nothing but their comments tells them apart. -/
structure SameContents (record other : Record) : Prop where
  texts : ∀ field, record.text field = other.text field
  version : record.version = other.version
  truncated : record.truncated = other.truncated
  fault : record.fault? = other.fault?
  regular : Word.packRegular record = Word.packRegular other
  word : Word.pack record = Word.pack other

/-- What two records have in common when nothing at all tells them apart. -/
structure SameThroughout (record other : Record) : Prop extends SameContents record other where
  comment : record.comment = other.comment

/-- The comment does not depend on how the line is filled up. -/
theorem comment_eq_padded (record : Record) :
    record.comment = Blank.trimEnd (Utf8.decode
      ((List.range' 71 11).map (record.octets.getD · Octet.blank))) := by
  rw [map_getD_range', Blank.trimEnd_decode_append, comment, List.drop_take]
  rfl

variable {record other : Record}

theorem text_congr (same : ∀ column ≤ 70, record.octets[column]? = other.octets[column]?)
    (field : Field) : record.text field = other.text field := by
  have fits := field.column_add_width_le
  apply List.ext_getElem?
  intro offset
  by_cases inside : offset < field.width
  · rw [text, text, List.getElem?_take_of_lt inside, List.getElem?_take_of_lt inside,
      List.getElem?_drop, List.getElem?_drop, same _ (by omega)]
  · rw [List.getElem?_eq_none, List.getElem?_eq_none]
    · rw [other.length_text]
      exact Nat.le_of_not_lt inside
    · rw [record.length_text]
      exact Nat.le_of_not_lt inside

/-- Whatever is computed from the fields is the same when their texts are. -/
theorem sameContents_of_texts (texts : ∀ field, record.text field = other.text field)
    (version : record.version = other.version) : SameContents record other where
  texts := texts
  version := version
  truncated := by simp only [truncated, texts]
  fault := by simp only [fault?, texts]
  regular := Word.packRegular_congr (address_congr (texts .addr)) (bitAt_of_texts texts)
  word := Word.pack_congr (address_congr (texts .addr)) (bitAt_of_texts texts)

theorem sameContents_of_columns (same : Line.SameColumns record.octets other.octets) :
    SameContents record other := by
  apply sameContents_of_texts (text_congr same.fields)
  apply List.map_congr_left
  intro offset member
  apply same.version
  revert offset
  decide

theorem sameThroughout_of_columns (same : Line.SameColumns record.octets other.octets)
    (remark : Line.SameRemark record.octets other.octets) : SameThroughout record other where
  toSameContents := sameContents_of_columns same
  comment := by
    rw [comment_eq_padded, comment_eq_padded, List.map_congr_left remark]

end Record

/-! ## Readings -/

namespace Line

/-- Two readings with the same outcome, where a relation says what two records have in common. -/
inductive Alike (same : Record → Record → Prop) :
    Except LineFault Line → Except LineFault Line → Prop where
  | comment : Alike same (.ok .comment) (.ok .comment)
  | unlisted (tag : String) : Alike same (.ok (.unlisted tag)) (.ok (.unlisted tag))
  | record {record other : Record} (agree : same record other) :
      Alike same (.ok (.record record)) (.ok (.record other))
  | fault (fault : LineFault) : Alike same (.error fault) (.error fault)

/-- A reading that is alike to one of a record has a record as well. -/
theorem Alike.exists_record {same : Record → Record → Prop} {record : Record}
    {reading : Except LineFault Line} (alike : Alike same (.ok (.record record)) reading) :
    ∃ other, reading = .ok (.record other) ∧ same record other := by
  cases alike with
  | record agree => exact ⟨_, rfl, agree⟩

theorem separator_le {column : Nat} (member : column ∈ Column.separators) : column ≤ 70 := by
  revert column
  decide

section Pairs

variable {left right : Bytes} (first : Complete left) (second : Complete right)
  (columns : SameColumns left right)

include first second columns

/-- The tests of a reading come out the same, one after the other. -/
theorem alike_of_columns {same : Record → Record → Prop}
    (agree : ∀ record other : Record, record.octets = left → other.octets = right →
      same record other)
    (accepted : TagSet) (strictness : Strictness) :
    Alike same (classify accepted strictness left) (classify accepted strictness right) := by
  have whole := dropReturn_eq_self first.bare
  have other := dropReturn_eq_self second.bare
  have head : (dropReturn left).head? = (dropReturn right).head? := by
    rw [whole, other, List.head?_eq_getElem?, List.head?_eq_getElem?, columns.fields 0 (by decide)]
  have blanks : (∀ column ∈ Column.separators, (dropReturn left)[column]? = some Octet.blank) ↔
      ∀ column ∈ Column.separators, (dropReturn right)[column]? = some Octet.blank := by
    rw [whole, other]
    apply forall₂_congr
    intro column member
    rw [columns.fields column (separator_le member)]
  rcases comment_or_record_or_neither left with opens | ⟨read, octets⟩ | ⟨opens, filled⟩
  · rw [classify_of_hash accepted strictness opens,
      classify_of_hash accepted strictness (head ▸ opens)]
    exact .comment
  · let found : Record := ⟨dropReturn right, blanks.mp (octets ▸ read.blanks)⟩
    have there : found.octets = dropReturn right := rfl
    have contents : read.SameContents found := by
      apply Record.sameContents_of_columns
      rwa [octets, there, whole, other]
    have related : same read found := agree read found (octets.trans whole) (there.trans other)
    rw [classify_of_record accepted strictness octets, classify_of_record accepted strictness there,
      contents.version, contents.fault]
    cases accepted.contains found.version with
    | false => exact .unlisted _
    | true =>
        cases strictness with
        | lenient => exact .record related
        | strict =>
            cases found.fault? with
            | none => exact .record related
            | some fault => exact .fault _
  · rw [classify_of_not_blank accepted strictness opens filled,
      classify_of_not_blank accepted strictness (head ▸ opens) (blanks.not.mp filled)]
    exact .fault .format

theorem sameContents_of_classify (accepted : TagSet) (strictness : Strictness) :
    Alike Record.SameContents (classify accepted strictness left)
      (classify accepted strictness right) := by
  apply alike_of_columns first second columns
  rintro record other rfl rfl
  exact Record.sameContents_of_columns columns

theorem sameThroughout_of_classify (remark : SameRemark left right) (accepted : TagSet)
    (strictness : Strictness) :
    Alike Record.SameThroughout (classify accepted strictness left)
      (classify accepted strictness right) := by
  apply alike_of_columns first second columns
  rintro record other rfl rfl
  exact Record.sameThroughout_of_columns columns remark

end Pairs

/-! ## Ends of lines -/

theorem getD_append_blanks (line : Bytes) (count column : Nat) :
    (line ++ List.replicate count Octet.blank).getD column Octet.blank =
      line.getD column Octet.blank := by
  rw [List.getD_eq_getElem?_getD, List.getD_eq_getElem?_getD]
  by_cases inside : column < line.length
  · rw [List.getElem?_append_left inside]
  · have behind := Nat.le_of_not_lt inside
    rw [List.getElem?_append_right behind, List.getElem?_eq_none behind, List.getElem?_replicate]
    split <;> rfl

/-- Behind the columns of the version a line may go on with anything. -/
theorem getD_filled_append (line more : Bytes) {column : Nat} (inside : column < 85) :
    (filled line ++ more).getD column Octet.blank = line.getD column Octet.blank := by
  have reached : column < (filled line).length := by
    rw [filled, List.length_append, List.length_replicate]
    omega
  rw [← getD_append_blanks line (85 - line.length), ← filled, List.getD_eq_getElem?_getD,
    List.getElem?_append_left reached, ← List.getD_eq_getElem?_getD]

/-- A line may end early where it holds blanks. -/
theorem getD_take_of_blank {line : Bytes} {length column : Nat}
    (blank : length ≤ column → line.getD column Octet.blank = Octet.blank) :
    (line.take length).getD column Octet.blank = line.getD column Octet.blank := by
  by_cases inside : column < length
  · rw [List.getD_eq_getElem?_getD, List.getElem?_take_of_lt inside, ← List.getD_eq_getElem?_getD]
  · have behind := Nat.le_of_not_lt inside
    have ended : (line.take length)[column]? = none := by
      rw [List.getElem?_take, if_neg inside]
    rw [blank behind, List.getD_eq_getElem?_getD, ended, Option.getD_none]

section Changed

variable {text : Bytes} (complete : Complete text)

include complete

theorem complete_append_blanks (count : Nat) :
    Complete (text ++ List.replicate count Octet.blank) where
  long := Nat.le_trans complete.long (by simp)
  bare := by
    rw [List.getLast?_append, List.getLast?_replicate]
    split
    · exact complete.bare
    · rw [Option.some_or]
      decide

theorem fields_append (more : Bytes) : ∀ column ≤ 70, text[column]? = (text ++ more)[column]? := by
  intro column inside
  have long := complete.long
  rw [List.getElem?_append_left (by omega)]

theorem sameColumns_append_blanks (count : Nat) :
    SameColumns text (text ++ List.replicate count Octet.blank) where
  fields := fields_append complete _
  version column _ := (getD_append_blanks text count column).symm

theorem sameColumns_filled_append (more : Bytes) : SameColumns text (filled text ++ more) where
  fields := List.append_assoc text _ more ▸ fields_append complete _
  version := by
    intro column member
    have inside : column < 85 := by
      revert column
      decide
    exact (getD_filled_append text more inside).symm

end Changed

/-- Nothing counts in a line but the columns of the fields, of the version and, for the comment
alone, of the comment.  So blanks can be put behind a line or be left out there, and behind the
columns of the version a line may go on with anything. -/
theorem fields_and_version_decide (accepted : TagSet) (strictness : Strictness) :
    (∀ left right, Complete left → Complete right → SameColumns left right →
      Alike Record.SameContents (classify accepted strictness left)
        (classify accepted strictness right) ∧
      (SameRemark left right →
        Alike Record.SameThroughout (classify accepted strictness left)
          (classify accepted strictness right))) ∧
    (∀ line, Complete line →
      (∀ count, Alike Record.SameThroughout (classify accepted strictness line)
        (classify accepted strictness (line ++ List.replicate count Octet.blank))) ∧
      (∀ length, 71 ≤ length → (line.take length).getLast? ≠ some Octet.carriageReturn →
        (∀ column ∈ [82, 83, 84], length ≤ column →
          line.getD column Octet.blank = Octet.blank) →
        Alike Record.SameContents (classify accepted strictness line)
          (classify accepted strictness (line.take length)) ∧
        ((∀ column ∈ List.range' 71 11, length ≤ column →
            line.getD column Octet.blank = Octet.blank) →
          Alike Record.SameThroughout (classify accepted strictness line)
            (classify accepted strictness (line.take length)))) ∧
      (∀ more, (filled line ++ more).getLast? ≠ some Octet.carriageReturn →
        Alike Record.SameThroughout (classify accepted strictness line)
          (classify accepted strictness (filled line ++ more)))) := by
  constructor
  · intro left right first second columns
    exact ⟨sameContents_of_classify first second columns accepted strictness,
      fun remark => sameThroughout_of_classify first second columns remark accepted strictness⟩
  · intro line complete
    have long := complete.long
    refine ⟨?_, ?_, ?_⟩
    · intro count
      exact sameThroughout_of_classify complete (complete_append_blanks complete count)
        (sameColumns_append_blanks complete count)
        (fun column _ => (getD_append_blanks line count column).symm) accepted strictness
    · intro length enough bare version
      have shorter : Complete (line.take length) := ⟨by rw [List.length_take]; omega, bare⟩
      have columns : SameColumns line (line.take length) := {
        fields := fun column inside => (List.getElem?_take_of_lt (by omega)).symm
        version := fun column member => (getD_take_of_blank (version column member)).symm }
      refine ⟨sameContents_of_classify complete shorter columns accepted strictness, ?_⟩
      intro comment
      exact sameThroughout_of_classify complete shorter columns
        (fun column member => (getD_take_of_blank (comment column member)).symm) accepted strictness
    · intro more bare
      have longer : Complete (filled line ++ more) :=
        ⟨by rw [filled, List.length_append, List.length_append]; omega, bare⟩
      have remark : SameRemark line (filled line ++ more) := by
        intro column member
        have inside : column < 71 + 11 := (List.mem_range'_1.mp member).2
        exact (getD_filled_append line more (by omega)).symm
      exact sameThroughout_of_classify complete longer (sameColumns_filled_append complete more)
        remark accepted strictness

/-- A record line that ends within its comment, on the first octet of a character. -/
def brokenOff : Bytes :=
  Utf8.encode " 102  F3 0001 0001 110 01 ???? ?? 0010 0110 000 00 00 000 0000 ? 0 0 1 #" ++ [0xC3]

/-- The same line with all its columns and more behind them. -/
def carriedOn : Bytes :=
  brokenOff ++ Utf8.encode "            QA001"

def brokenOffRecord : Record where
  octets := brokenOff
  blanks := by decide +kernel

theorem fields_and_version_decide_brokenOff :
    (Complete brokenOff ∧ Complete carriedOn ∧ SameColumns brokenOff carriedOn ∧
      SameRemark brokenOff carriedOn ∧
      classify .standard .strict brokenOff = .ok (.record brokenOffRecord) ∧
      ∃ other, classify .standard .strict carriedOn = .ok (.record other) ∧
        brokenOffRecord.SameThroughout other) ∧
    ((brokenOff.take 71).getLast? ≠ some Octet.carriageReturn ∧
      (∀ column ∈ [82, 83, 84], 71 ≤ column →
        brokenOff.getD column Octet.blank = Octet.blank) ∧
      Alike Record.SameContents (classify .standard .strict brokenOff)
        (classify .standard .strict (brokenOff.take 71))) ∧
    (filled brokenOff ++ [0x21]).getLast? ≠ some Octet.carriageReturn ∧
    Alike Record.SameThroughout (classify .standard .strict brokenOff)
      (classify .standard .strict (filled brokenOff ++ [0x21])) := by
  have short : Complete brokenOff := ⟨by decide +kernel, by decide +kernel⟩
  have long : Complete carriedOn := ⟨by decide +kernel, by decide +kernel⟩
  have columns : SameColumns brokenOff carriedOn := ⟨by decide +kernel, by decide +kernel⟩
  have remark : SameRemark brokenOff carriedOn := by unfold SameRemark; decide +kernel
  have found : classify .standard .strict brokenOff = .ok (.record brokenOffRecord) :=
    classify_eq_record_iff.mpr ⟨by decide +kernel, by decide +kernel, fun _ => by decide +kernel⟩
  have cut : (brokenOff.take 71).getLast? ≠ some Octet.carriageReturn := by decide +kernel
  have version : ∀ column ∈ [82, 83, 84], 71 ≤ column →
      brokenOff.getD column Octet.blank = Octet.blank := by
    decide +kernel
  have behind : (filled brokenOff ++ [0x21]).getLast? ≠ some Octet.carriageReturn := by
    decide +kernel
  rcases fields_and_version_decide .standard .strict with ⟨pairs, ends⟩
  rcases ends brokenOff short with ⟨-, early, late⟩
  have alike := (pairs brokenOff carriedOn short long columns).2 remark
  rw [found] at alike
  exact ⟨⟨short, long, columns, remark, found, alike.exists_record⟩,
    ⟨cut, version, (early 71 (by decide) cut version).1⟩, behind, late [0x21] behind⟩

end Line

end Microcode
