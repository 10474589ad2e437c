import Microcode.Listing.Record
import Mathlib.Data.List.TakeWhile

namespace Microcode

/-!
What the kinds of fields admit, octet by octet.

A strict reading looks for the first octet that does not belong, and a lenient one notes
which numerals end early.  Both come down to the same question about the octets of each
field, wherever the search stops.
-/

/-- Whether an octet may stand in a field of the kind. -/
def FieldKind.admits : FieldKind → UInt8 → Bool
  | hex => Hex.isDigit
  | bits => Binary.isGroupOctet

/-- The numerals are the first two fields. -/
theorem Field.filter_hex :
    Field.all.filter (fun field => field.kind = .hex) = [.addr, .cn] := by
  decide

namespace Hex

theorem leading_eq_self_iff {text : Bytes} :
    leading text = text ↔ ∀ octet ∈ text, isDigit octet :=
  List.takeWhile_eq_self_iff

/-- All octets are consumed just when they all are digits. -/
theorem length_le_consumed_iff {text : Bytes} :
    text.length ≤ consumed text ↔ ∀ octet ∈ text, isDigit octet := by
  rw [← leading_eq_self_iff]
  constructor
  · exact (List.takeWhile_prefix isDigit).eq_of_length_le
  · intro whole
    rw [consumed, whole]

/-- A text of digits is read to its end. -/
theorem exact_of_digits {text : Bytes} (digits : ∀ octet ∈ text, isDigit octet) :
    exact text = .ok (value text) := by
  rw [exact, List.getElem?_eq_none (length_le_consumed_iff.mpr digits)]

/-- Otherwise the octet that ends the digits is reported. -/
theorem exact_append {front : Bytes} (digits : ∀ digit ∈ front, isDigit digit) {octet : UInt8}
    (foreign : ¬ isDigit octet) (behind : Bytes) :
    exact (front ++ octet :: behind) = .error (.notHex octet front.length) := by
  have whole : leading (front ++ octet :: behind) = front := by
    rw [leading, List.takeWhile_append_of_pos digits, List.takeWhile_cons_of_neg foreign,
      List.append_nil]
  rw [exact, consumed, whole, List.getElem?_append_right (Nat.le_refl _), Nat.sub_self,
    List.getElem?_cons_zero]

theorem exact_eq_ok_iff {text : Bytes} :
    (∃ found, exact text = .ok found) ↔ ∀ octet ∈ text, isDigit octet := by
  rw [← length_le_consumed_iff, ← List.getElem?_eq_none_iff]
  unfold exact
  cases text[consumed text]? with
  | none => simp
  | some octet => simp

end Hex

namespace Binary

theorem fault?_eq_none_iff {group : Bytes} :
    fault? group = none ↔ ∀ octet ∈ group, isGroupOctet octet := by
  rw [fault?, Option.map_eq_none_iff, List.find?_eq_none]
  constructor
  · intro clean octet member
    rcases List.getElem_of_mem member with ⟨offset, inside, rfl⟩
    have here := clean (group[offset], offset)
      (List.mk_mem_zipIdx_iff_getElem?.mpr (List.getElem?_eq_getElem inside))
    simpa using here
  · rintro clean ⟨octet, offset⟩ member
    have here := clean octet (List.fst_mem_of_mem_zipIdx member)
    simpa using here

end Binary

namespace Record

theorem digitFault?_eq_none_iff {kind : FieldKind} {text : Bytes} :
    digitFault? kind text = none ↔ ∀ octet ∈ text, kind.admits octet := by
  cases kind with
  | bits => exact Binary.fault?_eq_none_iff
  | hex =>
      refine Iff.trans ?_ Hex.exact_eq_ok_iff
      rw [digitFault?]
      cases Hex.exact text with
      | ok found => simp
      | error fault => simp

/-- A record is free of faults when every octet of every field is admitted there. -/
theorem fault?_eq_none_iff {record : Record} :
    record.fault? = none ↔
      ∀ field : Field, ∀ octet ∈ record.text field, field.kind.admits octet := by
  simp only [fault?, List.findSome?_eq_none_iff, Option.map_eq_none_iff,
    digitFault?_eq_none_iff]
  exact ⟨fun clean field => clean field field.mem_all, fun clean field _ => clean field⟩

/-- A numeral is truncated when it holds anything but digits. -/
theorem mem_truncated {record : Record} {field : Field} :
    field ∈ record.truncated ↔
      field.kind = .hex ∧ ¬ ∀ octet ∈ record.text field, Hex.isDigit octet := by
  rw [truncated, List.mem_filter, ← Hex.length_le_consumed_iff, record.length_text, Nat.not_le]
  simp [field.mem_all]

/-- What a strict reading accepts has no truncated numeral. -/
theorem truncated_eq_nil_of_fault? {record : Record} (faultless : record.fault? = none) :
    record.truncated = [] := by
  apply List.eq_nil_iff_forall_not_mem.mpr
  intro field member
  rcases mem_truncated.mp member with ⟨kind, opened⟩
  have admitted := fault?_eq_none_iff.mp faultless field
  rw [kind] at admitted
  exact opened admitted

end Record

end Microcode
