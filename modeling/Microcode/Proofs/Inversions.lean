import Microcode.Proofs.Corruption
import Microcode.Proofs.LetterCase
import Microcode.Proofs.Written

namespace Microcode

/-!
The words whose parity is inverted.

An erratum belongs to an address, but a listing only holds the spelling of one.  No spelling
that ends early reaches an address with an erratum, so the inverted words are those whose
addresses are spelled out in full.
-/

namespace Record

/-- An address that needs all its digits is met by no other spelling. -/
theorem toNat_address_eq_iff (record : Record) (address : BitVec addressBits)
    (full : 256 ≤ address.toNat) :
    record.address.toNat = address.toNat ↔
      SameButCase (record.text .addr) (Hex.address .upper address) := by
  have digits : ∀ octet ∈ Hex.address .upper address, Hex.isDigit octet :=
    Hex.isDigit_digits .upper (Layout.addressDigits_lt address)
  have number := Layout.number_address address .upper
  rw [toNat_address, ← number]
  exact Hex.number_eq_iff (record.length_text .addr) digits (number ▸ full)

/-- Two digits do not reach as far as three. -/
theorem toNat_address_lt_of_open (record : Record)
    (opened : ∃ octet ∈ record.text .addr, octet ∉ Hex.digitOctets) :
    record.address.toNat < 256 := by
  have width : (record.text .addr).length = 3 := record.length_text .addr
  have bound := Hex.number_lt_of_open opened
  rwa [width, ← toNat_address] at bound

end Record

/-- Errata only concern addresses of three digits. -/
theorem Erratum.invertedAt_of_lt {address : Nat} (small : address < 256) :
    invertedAt address = .empty := by
  rw [invertedAt_eq, if_neg (by omega), if_neg (by omega)]

namespace Word

/-- Inversions are the only difference that packing adds. -/
theorem differing_packRegular (record : Record) :
    differing (pack record) (packRegular record) =
      (Erratum.invertedAt record.address.toNat).positions.toFinset := by
  ext position
  rw [differing, Finset.mem_filter, Finset.mem_range, bit_pack, List.mem_toFinset]
  constructor
  · rintro ⟨-, different⟩
    by_contra regular
    simp [regular] at different
  · intro inverted
    rcases List.mem_map.mp inverted with ⟨bit, -, rfl⟩
    exact ⟨bit.position.isLt, by simp [inverted]⟩

theorem pack_of_regular {record : Record}
    (regular : Erratum.invertedAt record.address.toNat = .empty) :
    pack record = packRegular record := by
  rw [pack, regular]
  rfl

/-- The parity of a word is inverted just when the listing spells out one of the two addresses
in full, in letters of either case.  A numeral that ends early still has an address, which is
that of its leading digits. -/
theorem inverted_when_spelled_out (record : Record) :
    (pack record).address = (packRegular record).address ∧
    differing (pack record) (packRegular record) =
      (if SameButCase (record.text .addr) (Utf8.encode "BA0") then {8, 33}
        else if SameButCase (record.text .addr) (Utf8.encode "B60") then {0, 7, 8, 33}
        else ∅) ∧
    ((∃ octet ∈ record.text .addr, octet ∉ Hex.digitOctets) →
      pack record = packRegular record ∧
      ∃ front octet behind, record.text .addr = front ++ octet :: behind ∧
        (∀ digit ∈ front, digit ∈ Hex.digitOctets) ∧ octet ∉ Hex.digitOctets ∧
        (pack record).address.toNat = Hex.digitsNumber front) := by
  have first : record.address.toNat = 0xBA0 ↔
      SameButCase (record.text .addr) (Utf8.encode "BA0") :=
    record.toNat_address_eq_iff 0xBA0 (by decide)
  have second : record.address.toNat = 0xB60 ↔
      SameButCase (record.text .addr) (Utf8.encode "B60") :=
    record.toNat_address_eq_iff 0xB60 (by decide)
  refine ⟨rfl, ?_, ?_⟩
  · rw [differing_packRegular, Erratum.positions_invertedAt]
    simp only [first, second]
    split
    · rfl
    · split <;> rfl
  · intro opened
    rcases Hex.exists_end_of_open opened with
      ⟨front, octet, behind, divided, digits, foreign, number⟩
    refine ⟨pack_of_regular ?_, front, octet, behind, divided, digits, foreign, ?_⟩
    · exact Erratum.invertedAt_of_lt (record.toNat_address_lt_of_open opened)
    · exact record.toNat_address.trans number

/-- A record at the other address with an erratum, spelled in both cases. -/
def mixedRecord : Record where
  octets := Utf8.encode " bA0  3F 1010 0110 101 11 0?01 10 1100 1001 011 10 01 110 0101 1 1 1 0 "
  blanks := by decide

theorem inverted_in_either_case :
    differing (pack mixedRecord) (packRegular mixedRecord) = {8, 33} ∧
    differing (pack lowerRecord) (packRegular lowerRecord) = {0, 7, 8, 33} ∧
    (∃ octet ∈ openRecord.text .addr, octet ∉ Hex.digitOctets) ∧
    pack openRecord = packRegular openRecord := by
  have mixed : SameButCase (mixedRecord.text .addr) (Utf8.encode "BA0") := by decide
  have other : ¬ SameButCase (lowerRecord.text .addr) (Utf8.encode "BA0") := by decide
  have lower : SameButCase (lowerRecord.text .addr) (Utf8.encode "B60") := by decide
  have opened : ∃ octet ∈ openRecord.text .addr, octet ∉ Hex.digitOctets := by decide
  refine ⟨?_, ?_, opened, ?_⟩
  · exact (inverted_when_spelled_out mixedRecord).2.1.trans (if_pos mixed)
  · rw [(inverted_when_spelled_out lowerRecord).2.1, if_neg other, if_pos lower]
  · exact ((inverted_when_spelled_out openRecord).2.2 opened).1

end Word

end Microcode
