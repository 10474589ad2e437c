import Microcode.Proofs.LetterCase
import Microcode.Proofs.Placement
import Mathlib.Data.List.Pairwise

namespace Microcode

/-!
The fault that a strict reading reports.

Fields are checked from left to right, and each of them from its first octet on, with a check of
its own for either kind.  As no field begins before the ones to its left end, the first fault found
is the leftmost one of the line, however many there are.
-/

/-- The octets that may stand in a field of the kind. -/
def FieldKind.alphabet : FieldKind → Bytes
  | hex => Hex.digitOctets
  | bits => Utf8.encode "01?"

/-- How an octet is reported that may not stand in a field of the kind. -/
def FieldKind.fault : FieldKind → UInt8 → Nat → DigitFault
  | hex => .notHex
  | bits => .notBit

theorem FieldKind.admits_iff_mem (kind : FieldKind) (octet : UInt8) :
    kind.admits octet ↔ octet ∈ kind.alphabet := by
  cases kind with
  | hex => exact Hex.isDigit_iff_mem octet
  | bits =>
      have group : bits.alphabet = [Octet.zero, Octet.one, Octet.question] := by decide
      simp [group, admits, Binary.isGroupOctet, or_assoc]

namespace Field

/-- Every field ends before those to its right begin. -/
theorem ordered : all.Pairwise fun left right => left.column + left.width ≤ right.column := by
  decide

/-- One of two fields ends before the other begins. -/
def Apart (field other : Field) : Prop :=
  field.column + field.width ≤ other.column ∨ other.column + other.width ≤ field.column

instance : Std.Symm Apart where
  symm _ _ := Or.symm

theorem apart_of_ne {field other : Field} (different : field ≠ other) : field.Apart other := by
  have either : all.Pairwise Apart := ordered.imp Or.inl
  exact either.forall field.mem_all other.mem_all different

end Field

/-- A field with an octet in it that its kind does not admit. -/
structure FaultAt (text : Bytes) (field : Field) (offset : Nat) (octet : UInt8) : Prop where
  inside : offset < field.width
  here : text[field.column + offset]? = some octet
  foreign : octet ∉ field.kind.alphabet

/-- The leftmost of such octets in a line. -/
structure LeftmostFault (text : Bytes) (field : Field) (offset : Nat) (octet : UInt8) : Prop
    extends FaultAt text field offset octet where
  first : ∀ other place found, FaultAt text other place found →
    field.column + offset ≤ other.column + place

namespace Record

/-! ## Single fields -/

/-- Both checks report the first octet that does not belong. -/
theorem digitFault?_append {kind : FieldKind} {front : Bytes} {octet : UInt8}
    (admitted : ∀ other ∈ front, kind.admits other) (foreign : ¬ kind.admits octet)
    (behind : Bytes) :
    digitFault? kind (front ++ octet :: behind) = some (kind.fault octet front.length) := by
  cases kind with
  | hex =>
      have digits : ∀ other ∈ front, Hex.isDigit other := admitted
      rw [digitFault?, Hex.exact_append digits foreign]
      rfl
  | bits =>
      have clean : Binary.fault? front = none := Binary.fault?_eq_none_iff.mpr admitted
      have passed := Option.map_eq_none_iff.mp clean
      have refused : Binary.isGroupOctet octet = false := Bool.eq_false_iff.mpr foreign
      rw [digitFault?, Binary.fault?, List.zipIdx_append, List.find?_append, passed,
        List.zipIdx_cons]
      simp [refused, FieldKind.fault]

theorem exists_of_digitFault? {kind : FieldKind} {text : Bytes} {cause : DigitFault}
    (found : digitFault? kind text = some cause) :
    ∃ front octet behind, text = front ++ octet :: behind ∧
      (∀ other ∈ front, kind.admits other) ∧ ¬ kind.admits octet ∧
      cause = kind.fault octet front.length := by
  have faulty : (text.find? fun octet => !kind.admits octet).isSome := by
    rw [List.find?_isSome]
    by_contra clean
    have none : digitFault? kind text = none := by
      rw [digitFault?_eq_none_iff]
      simpa using clean
    cases none.symm.trans found
  rcases Option.isSome_iff_exists.mp faulty with ⟨octet, located⟩
  rcases List.find?_eq_some_iff_append.mp located with ⟨foreign, front, behind, rfl, clean⟩
  have admitted : ∀ other ∈ front, kind.admits other := by simpa using clean
  have refused : ¬ kind.admits octet := by simpa using foreign
  rw [digitFault?_append admitted refused] at found
  exact ⟨front, octet, behind, rfl, admitted, refused, (Option.some.inj found).symm⟩

variable {record : Record}

theorem faultAt_iff {field : Field} {offset : Nat} {octet : UInt8} :
    FaultAt record.octets field offset octet ↔
      (record.text field)[offset]? = some octet ∧ ¬ field.kind.admits octet := by
  rw [FieldKind.admits_iff_mem]
  constructor
  · intro fault
    rw [record.getElem?_text fault.inside]
    exact ⟨fault.here, fault.foreign⟩
  · rintro ⟨here, foreign⟩
    have inside : offset < field.width := by
      rw [← record.length_text field]
      exact (List.getElem?_eq_some_iff.mp here).1
    rw [record.getElem?_text inside] at here
    exact ⟨inside, here, foreign⟩

/-! ## All fields -/

/-- The first fault is the leftmost one: whatever stands further to the left belongs to a field
that was checked before, or to the part of the same field that was passed over. -/
theorem leftmostFault_of_fault? {fault : FieldFault} (found : record.fault? = some fault) :
    ∃ offset octet, LeftmostFault record.octets fault.field offset octet ∧
      fault.cause = fault.field.kind.fault octet offset := by
  rcases List.findSome?_eq_some_iff.mp found with ⟨before, field, behind, divided, here, clean⟩
  rcases Option.map_eq_some_iff.mp here with ⟨cause, faulty, rfl⟩
  rcases exists_of_digitFault? faulty with ⟨front, octet, rest, text, admitted, foreign, rfl⟩
  have located : (record.text field)[front.length]? = some octet := by
    rw [text, List.getElem?_append_right (Nat.le_refl _), Nat.sub_self, List.getElem?_cons_zero]
  have there := faultAt_iff.mpr ⟨located, foreign⟩
  refine ⟨front.length, octet, ⟨there, ?_⟩, rfl⟩
  intro other place another fault
  change field.column + front.length ≤ other.column + place
  have inside := there.inside
  rcases faultAt_iff.mp fault with ⟨holds, refused⟩
  have listed := other.mem_all
  rw [divided, List.mem_append, List.mem_cons] at listed
  rcases listed with earlier | rfl | later
  · have none := Option.map_eq_none_iff.mp (clean other earlier)
    exact absurd (digitFault?_eq_none_iff.mp none another (List.mem_of_getElem? holds)) refused
  · by_contra passed
    have inFront : place < front.length := by omega
    rw [text, List.getElem?_append_left inFront] at holds
    exact refused (admitted another (List.mem_of_getElem? holds))
  · have ordered := Field.ordered
    rw [divided] at ordered
    have right := (List.pairwise_cons.mp (List.pairwise_append.mp ordered).2.1).1 other later
    omega

end Record

/-- A line has only one leftmost fault, as no column belongs to two fields. -/
theorem LeftmostFault.unique {text : Bytes} {field other : Field} {offset place : Nat}
    {octet another : UInt8} (first : LeftmostFault text field offset octet)
    (second : LeftmostFault text other place another) :
    field = other ∧ offset = place ∧ octet = another := by
  have column : field.column + offset = other.column + place :=
    Nat.le_antisymm (first.first other place another second.toFaultAt)
      (second.first field offset octet first.toFaultAt)
  have same : field = other := by
    by_contra different
    have inside := first.inside
    have within := second.inside
    rcases Field.apart_of_ne different with left | right <;> omega
  subst same
  have offsets : offset = place := Nat.add_left_cancel column
  subst offsets
  exact ⟨rfl, rfl, Option.some.inj (first.here.symm.trans second.here)⟩

theorem Record.fault?_eq_some_iff {record : Record} {fault : FieldFault} :
    record.fault? = some fault ↔
      ∃ offset octet, LeftmostFault record.octets fault.field offset octet ∧
        fault.cause = fault.field.kind.fault octet offset := by
  constructor
  · exact leftmostFault_of_fault?
  · rintro ⟨offset, octet, leftmost, reported⟩
    cases found : record.fault? with
    | none =>
        rcases faultAt_iff.mp leftmost.toFaultAt with ⟨located, foreign⟩
        have clean := fault?_eq_none_iff.mp found fault.field octet (List.mem_of_getElem? located)
        exact absurd clean foreign
    | some other =>
        rcases leftmostFault_of_fault? found with ⟨place, another, second, cause⟩
        rcases fault with ⟨field, reason⟩
        rcases other with ⟨field', reason'⟩
        rcases leftmost.unique second with ⟨same, rfl, rfl⟩
        cases same
        exact congrArg (fun cause => some (FieldFault.mk field cause)) (cause.trans reported.symm)

/-! ## Lines -/

section Columns

variable {text other : Bytes} (same : ∀ column ≤ 70, text[column]? = other[column]?)
  {field : Field} {offset : Nat} {octet : UInt8}

include same

theorem FaultAt.of_columns (fault : FaultAt text field offset octet) :
    FaultAt other field offset octet where
  inside := fault.inside
  here := by
    have inside := fault.inside
    have fits := field.column_add_width_le
    rw [← same _ (by omega), fault.here]
  foreign := fault.foreign

theorem LeftmostFault.of_columns (leftmost : LeftmostFault text field offset octet) :
    LeftmostFault other field offset octet where
  toFaultAt := leftmost.toFaultAt.of_columns same
  first another place found fault :=
    leftmost.first another place found
      (fault.of_columns fun column inside => (same column inside).symm)

end Columns

namespace Line

/-- A record is free of faults when its numerals hold digits and its bit groups hold bits and open
marks.  Otherwise the fault found is the leftmost one, and it is reported as the kind of its field
demands.  A strict reading refuses the record for just this fault; on a line without a record it
comes to the same as a lenient one, whatever is in the fields. -/
theorem strict_reports_leftmost_fault (accepted : TagSet) (text : Bytes) :
    (∀ record, classify accepted .lenient text = .ok (.record record) →
      (record.fault? = none ↔
        ∀ field : Field, ∀ octet ∈ field.slice text, octet ∈ field.kind.alphabet) ∧
      (∀ fault, record.fault? = some fault ↔
        ∃ offset octet, LeftmostFault text fault.field offset octet ∧
          fault.cause = fault.field.kind.fault octet offset) ∧
      classify accepted .strict text =
        match record.fault? with
        | none => .ok (.record record)
        | some fault => .error (.field fault)) ∧
    ((∀ record, classify accepted .lenient text ≠ .ok (.record record)) →
      classify accepted .strict text = classify accepted .lenient text) := by
  constructor
  · intro record found
    have columns : ∀ column ≤ 70, text[column]? = record.octets[column]? :=
      fun _ => getElem?_of_record found
    refine ⟨?_, ?_, ?_⟩
    · simp only [Record.fault?_eq_none_iff, FieldKind.admits_iff_mem, slice_of_record found]
    · intro fault
      rw [Record.fault?_eq_some_iff]
      constructor
      · rintro ⟨offset, octet, leftmost, reported⟩
        have here := leftmost.of_columns fun column inside => (columns column inside).symm
        exact ⟨offset, octet, here, reported⟩
      · rintro ⟨offset, octet, leftmost, reported⟩
        exact ⟨offset, octet, leftmost.of_columns columns, reported⟩
    · rw [classify_strict, found]
      change checked (.record record) = _
      rw [checked]
      cases record.fault? <;> rfl
  · intro recordless
    rw [classify_strict]
    cases found : classify accepted .lenient text with
    | error fault => rfl
    | ok kind =>
        cases kind with
        | comment => rfl
        | unlisted tag => rfl
        | record record => exact absurd found (recordless record)

/-- A line with faults in CH, CM and PK. -/
def manyFaults : Bytes :=
  Utf8.encode " 104  F3 0?x7 0001 1z0 01 ???? ?? 0010 0110 000 00 00 000 0000 ? 0 0 7 "

def manyFaultsRecord : Record where
  octets := manyFaults
  blanks := by decide +kernel

/-- The fault in CH comes first, and none is seen where the version is not accepted. -/
theorem strict_reports_leftmost_of_manyFaults :
    (classify .standard .lenient manyFaults = .ok (.record manyFaultsRecord) ∧
      classify .standard .strict manyFaults = .error (.field ⟨.ch, .notBit 0x78 2⟩) ∧
      ∃ offset octet, LeftmostFault manyFaults .ch offset octet) ∧
    (∀ record, classify .empty .lenient manyFaults ≠ .ok (.record record)) ∧
    classify .empty .strict manyFaults = .ok (.unlisted "   ") := by
  have found : classify .standard .lenient manyFaults = .ok (.record manyFaultsRecord) :=
    classify_eq_record_iff.mpr ⟨by decide +kernel, by decide +kernel,
      fun impossible => nomatch impossible⟩
  have fault : manyFaultsRecord.fault? = some ⟨.ch, .notBit 0x78 2⟩ := by decide +kernel
  have passed : classify .empty .lenient manyFaults = .ok (.unlisted "   ") := by decide +kernel
  have recordless : ∀ record, classify .empty .lenient manyFaults ≠ .ok (.record record) := by
    intro record impossible
    cases passed.symm.trans impossible
  rcases (strict_reports_leftmost_fault .standard manyFaults).1 _ found with ⟨-, reported, strict⟩
  rcases (reported _).mp fault with ⟨offset, octet, leftmost, -⟩
  rw [fault] at strict
  exact ⟨⟨found, strict, offset, octet, leftmost⟩, recordless,
    ((strict_reports_leftmost_fault .empty manyFaults).2 recordless).trans passed⟩

end Line

end Microcode
