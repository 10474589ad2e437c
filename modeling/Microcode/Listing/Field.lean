namespace Microcode

/-!
The columns of a listing line.

```text
#AAA  CN CH   CL   CM  CU CA   CB CK   CD   CF  CG CV CC  CS   AAASAKPK
 102  F3 0001 0001 110 01 ???? ?? 0010 0110 000 00 00 000 0000 ? 0 0 1 # QA001:C2
```

A record line holds nineteen fields in fixed columns with blanks between them.  The
fields take columns 1 to 69; then come a blank, the comment columns, and the tag of
the version in which the line applies.
-/

/-- The fields in the order of their columns. -/
inductive Field where
  | addr | cn | ch | cl | cm | cu | ca | cb | ck | cd
  | cf | cg | cv | cc | cs | aa | as | ak | pk
  deriving DecidableEq, Repr

/-- How the text of a field is read. -/
inductive FieldKind where
  /-- A hexadecimal numeral. -/
  | hex
  /-- A group of bits, each of which may be left open. -/
  | bits
  deriving DecidableEq, Repr

/-- What a listing says of a field. -/
structure FieldDescription where
  field : Field
  /-- The heading of the field's columns. -/
  name : String
  /-- The first column of the field. -/
  column : Nat
  width : Nat
  kind : FieldKind
  deriving DecidableEq, Repr

namespace Field

def all : List Field :=
  [addr, cn, ch, cl, cm, cu, ca, cb, ck, cd, cf, cg, cv, cc, cs, aa, as, ak, pk]

theorem mem_all (field : Field) : field ∈ all := by
  cases field <;> decide

/-- The rows that describe the fields. -/
def table : List FieldDescription :=
  [⟨.addr, "ADDR", 1, 3, .hex⟩,
    ⟨.cn, "CN", 6, 2, .hex⟩,
    ⟨.ch, "CH", 9, 4, .bits⟩,
    ⟨.cl, "CL", 14, 4, .bits⟩,
    ⟨.cm, "CM", 19, 3, .bits⟩,
    ⟨.cu, "CU", 23, 2, .bits⟩,
    ⟨.ca, "CA", 26, 4, .bits⟩,
    ⟨.cb, "CB", 31, 2, .bits⟩,
    ⟨.ck, "CK", 34, 4, .bits⟩,
    ⟨.cd, "CD", 39, 4, .bits⟩,
    ⟨.cf, "CF", 44, 3, .bits⟩,
    ⟨.cg, "CG", 48, 2, .bits⟩,
    ⟨.cv, "CV", 51, 2, .bits⟩,
    ⟨.cc, "CC", 54, 3, .bits⟩,
    ⟨.cs, "CS", 58, 4, .bits⟩,
    ⟨.aa, "AA", 63, 1, .bits⟩,
    ⟨.as, "AS", 65, 1, .bits⟩,
    ⟨.ak, "AK", 67, 1, .bits⟩,
    ⟨.pk, "PK", 69, 1, .bits⟩]

theorem map_field_table : table.map FieldDescription.field = all :=
  rfl

theorem getElem?_ctorIdx_all (field : Field) : all[field.ctorIdx]? = some field := by
  cases field <;> rfl

theorem ctorIdx_lt_length_table (field : Field) : field.ctorIdx < table.length := by
  cases field <;> decide

/-- The row that describes a field.  Rows stand in the order in which the fields are declared,
so the place of a field among them is known without a search. -/
def description (field : Field) : FieldDescription :=
  table.get ⟨field.ctorIdx, field.ctorIdx_lt_length_table⟩

theorem getElem?_ctorIdx_table (field : Field) :
    table[field.ctorIdx]? = some field.description :=
  List.getElem?_eq_getElem field.ctorIdx_lt_length_table

/-- A field finds its own row. -/
theorem field_description (field : Field) : field.description.field = field := by
  have place := getElem?_ctorIdx_all field
  rw [← map_field_table, List.getElem?_map, getElem?_ctorIdx_table] at place
  exact Option.some.inj place

def name (field : Field) : String :=
  field.description.name

def column (field : Field) : Nat :=
  field.description.column

def width (field : Field) : Nat :=
  field.description.width

def kind (field : Field) : FieldKind :=
  field.description.kind

/-- The field's spelling where it stands for itself as a value. -/
def key : Field → String
  | addr => "Addr"
  | cn => "Cn"
  | ch => "Ch"
  | cl => "Cl"
  | cm => "Cm"
  | cu => "Cu"
  | ca => "Ca"
  | cb => "Cb"
  | ck => "Ck"
  | cd => "Cd"
  | cf => "Cf"
  | cg => "Cg"
  | cv => "Cv"
  | cc => "Cc"
  | cs => "Cs"
  | aa => "Aa"
  | as => "As"
  | ak => "Ak"
  | pk => "Pk"

def ofKey? (key : String) : Option Field :=
  all.find? fun field => field.key == key

end Field

namespace Column

/-- The columns around and between the fields, which hold a blank in every record
line. -/
def separators : List Nat :=
  [0, 4, 5, 8, 13, 18, 22, 25, 30, 33, 38, 43, 47, 50, 53, 57, 62, 64, 66, 68, 70]

abbrev comment : Nat := 71

abbrev version : Nat := 82

abbrev versionWidth : Nat := 3

/-- The length of a line that has all its columns. -/
abbrev recordLength : Nat := version + versionWidth

end Column

end Microcode
