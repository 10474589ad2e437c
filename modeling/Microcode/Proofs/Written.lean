import Microcode.Proofs.Admission
import Microcode.Proofs.Assembly
import Microcode.Proofs.Numerals

namespace Microcode

/-!
Lines with given contents.

Whatever a word is to hold can be written into the fields of a line, in digits that a
strict reading admits, so there is a record with exactly these contents.
-/

namespace Layout

variable (address : BitVec addressBits) (next : BitVec 6) (ones : Field → Nat → Bool)

/-- The values of the digits of an address. -/
def addressDigits : List Nat :=
  [address.toNat / 256, address.toNat / 16 % 16, address.toNat % 16]

/-- The values of the digits of a next address.  Its two low bits are written as clear. -/
def nextDigits : List Nat :=
  [next.toNat / 4, next.toNat % 4 * 4]

/-- The texts of fields with the given contents: an address, the six high bits of the next
address, and the ones of the bit groups. -/
def contents : Field → Bytes
  | .addr => Hex.address .upper address
  | .cn => (nextDigits next).map (Hex.digit .upper)
  | field => Binary.digits ((List.range field.width).map (ones field))

theorem length_contents (field : Field) :
    (contents address next ones field).length = field.width := by
  cases field
  case addr => rfl
  case cn => rfl
  all_goals simp [contents, Binary.digits]

theorem contents_of_kind {field : Field} (group : field.kind = .bits) :
    contents address next ones field =
      Binary.digits ((List.range field.width).map (ones field)) := by
  cases field
  case addr => cases group
  case cn => cases group
  all_goals rfl

theorem addressDigits_lt : ∀ value ∈ addressDigits address, value < 16 := by
  have bound : address.toNat < 2 ^ 12 := address.isLt
  simp only [addressDigits, List.forall_mem_cons, List.not_mem_nil, false_implies, implies_true,
    and_true]
  omega

theorem nextDigits_lt : ∀ value ∈ nextDigits next, value < 16 := by
  have bound := next.isLt
  simp only [nextDigits, List.forall_mem_cons, List.not_mem_nil, false_implies, implies_true,
    and_true]
  omega

theorem number_address (letters : Hex.LetterCase) :
    Hex.number (Hex.address letters address) = address.toNat := by
  have bound : address.toNat < 2 ^ 12 := address.isLt
  refine (Hex.number_digits letters (addressDigits_lt address)).trans ?_
  simp only [addressDigits, List.reverse_cons, List.reverse_nil, List.nil_append,
    List.cons_append, Nat.ofDigits_cons, Nat.ofDigits_nil]
  omega

theorem number_next : Hex.number (contents address next ones .cn) = next.toNat * 4 := by
  refine (Hex.number_digits .upper (nextDigits_lt next)).trans ?_
  simp only [nextDigits, List.reverse_cons, List.reverse_nil, List.nil_append,
    List.cons_append, Nat.ofDigits_cons, Nat.ofDigits_nil]
  omega

theorem admits_contents (field : Field) :
    ∀ octet ∈ contents address next ones field, field.kind.admits octet := by
  cases kind : field.kind with
  | bits =>
      intro octet member
      rw [contents_of_kind address next ones kind] at member
      rcases List.mem_map.mp member with ⟨bit, -, rfl⟩
      cases bit <;> rfl
  | hex =>
      cases field
      case addr => exact Hex.isDigit_digits .upper (addressDigits_lt address)
      case cn => exact Hex.isDigit_digits .upper (nextDigits_lt next)
      all_goals cases kind

/-- The record with the given contents, for every version. -/
def written : Record :=
  record (contents address next ones) (length_contents address next ones) []

theorem text_written (field : Field) :
    (written address next ones).text field = contents address next ones field :=
  text_record _ _ field

/-- A strict reading accepts the line as it stands. -/
theorem classify_written :
    Line.classify .standard .strict (written address next ones).octets =
      .ok (.record (written address next ones)) := by
  apply Line.classify_eq_record_iff.mpr
  refine ⟨?_, ?_, fun _ => ?_⟩
  · have last : (written address next ones).octets.getLast? = some Octet.blank :=
      List.getLast?_concat
    rw [Line.dropReturn_eq_self (by rw [last]; decide)]
  · have blank : (written address next ones).version =
        [Octet.blank, Octet.blank, Octet.blank] :=
      version_record _ []
    rw [blank]
    decide
  · apply Record.fault?_eq_none_iff.mpr
    intro field
    rw [text_written]
    exact admits_contents address next ones field

end Layout

end Microcode
