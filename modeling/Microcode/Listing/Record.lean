import Microcode.Listing.Fault
import Microcode.Numeral.Binary
import Microcode.Numeral.Hex
import Microcode.Text.Blank
import Microcode.Text.Utf8

namespace Microcode

/-!
Record lines and what their columns hold.
-/

/-- A line with a blank in every separator column.  As the last of them follows
the last field, such a line is long enough to hold all fields. -/
structure Record where
  octets : Bytes
  blanks : ∀ column ∈ Column.separators, octets[column]? = some Octet.blank
  deriving DecidableEq

namespace Record

theorem lt_length (record : Record) : 70 < record.octets.length := by
  have found := record.blanks 70 (by decide)
  exact (List.getElem?_eq_some_iff.mp found).1

/-- The octets in the columns of a field. -/
def text (record : Record) (field : Field) : Bytes :=
  (record.octets.drop field.column).take field.width

/-- No field reaches past the end of a record line. -/
theorem length_text (record : Record) (field : Field) :
    (record.text field).length = field.width := by
  have long := record.lt_length
  have fits : field.column + field.width ≤ 70 := by cases field <;> decide
  rw [text, List.length_take, List.length_drop]
  omega

/-- The octets in the version columns.  A line that ends before them is taken to
go on with blanks. -/
def version (record : Record) : Bytes :=
  (List.range Column.versionWidth).map fun offset =>
    record.octets.getD (Column.version + offset) Octet.blank

/-- The text in the comment columns, without blanks at its end. -/
def comment (record : Record) : String :=
  Blank.trimEnd (Utf8.decode ((record.octets.take Column.version).drop Column.comment))

/-- The numerals whose digits end before their columns do. -/
def truncated (record : Record) : List Field :=
  Field.all.filter fun field =>
    field.kind = .hex ∧ Hex.consumed (record.text field) < field.width

/-- Why the kind of a field does not admit some text. -/
def digitFault? (kind : FieldKind) (text : Bytes) : Option DigitFault :=
  match kind with
  | .hex =>
      match Hex.exact text with
      | .ok _ => none
      | .error fault => some fault
  | .bits => Binary.fault? text

/-- The leftmost fault in the fields. -/
def fault? (record : Record) : Option FieldFault :=
  Field.all.findSome? fun field =>
    (digitFault? field.kind (record.text field)).map fun cause => ⟨field, cause⟩

/-- The address in the control store.  Three digits are never more than its bits
hold. -/
def address (record : Record) : BitVec addressBits :=
  .ofNat addressBits (Hex.value (record.text .addr)).toNat

/-- The bits that the text of a field stands for, the most significant one first.
An open bit counts as clear. -/
def bits (record : Record) : Field → List Bool
  | .addr => Binary.bits record.address addressBits
  | .cn => Binary.bits (Hex.value (record.text .cn)).toBitVec 8
  | field => (record.text field).map Binary.bit

end Record

end Microcode
