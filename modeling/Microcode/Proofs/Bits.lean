import Microcode.Word.Pack
import Mathlib.Data.List.Basic

namespace Microcode

/-!
The bits of a packed word, position by position.

Packing writes a word several times over.  The field bits come first, then PA, then
one parity bit for each coverage, and at last the inversions of an erratum.  Each
pass is described here by what it leaves at an arbitrary position, so that later
arguments need not look at the passes themselves.
-/

namespace ParityBit

theorem mem_all (bit : ParityBit) : bit ∈ all := by
  cases bit <;> decide

theorem position_injective {left right : ParityBit}
    (same : left.position = right.position) : left = right := by
  have distinct : ∀ left ∈ all, ∀ right ∈ all, left.position = right.position → left = right := by
    decide
  exact distinct left (mem_all left) right (mem_all right) same

end ParityBit

namespace ParityFlags

/-- Where the parity bits of the set stand. -/
def positions (flags : ParityFlags) : List Nat :=
  flags.members.map fun bit => bit.position.val

theorem nodup_members (flags : ParityFlags) : flags.members.Nodup :=
  List.Pairwise.filter _ (by decide)

end ParityFlags

namespace Word

/-- What stands at a position.  Beyond the last position every bit is clear. -/
def read (bits : Vector Bool wordBits) (position : Nat) : Bool :=
  bits[position]?.getD false

def bit (word : Word) (position : Nat) : Bool :=
  read word.bits position

theorem read_place (bits : Vector Bool wordBits) (place : Fin wordBits) :
    read bits place = bits.get place := by
  have inside : bits[place.val]? = some (bits.get place) := Vector.getElem?_eq_getElem place.isLt
  rw [read, inside]
  rfl

theorem cell?_eq_bit (word : Word) {position : Nat} (inside : position < cells) :
    word.cell? position = some (word.bit position) := by
  rw [cell?, if_pos inside, bit, read]

theorem ext_read {left right : Vector Bool wordBits}
    (same : ∀ position < wordBits, read left position = read right position) : left = right := by
  apply Vector.ext
  intro position inside
  have here := same position inside
  simpa [read, inside] using here

/-- Two words are equal when they agree on the address and on every bit. -/
theorem ext_bit {left right : Word} (sameAddress : left.address = right.address)
    (sameBits : ∀ position < wordBits, left.bit position = right.bit position) :
    left = right := by
  rcases left with ⟨address, bits⟩
  rcases right with ⟨address', bits'⟩
  rw [show bits = bits' from ext_read sameBits, show address = address' from sameAddress]

theorem read_set (bits : Vector Bool wordBits) (place : Fin wordBits) (value : Bool)
    (position : Nat) :
    read (bits.set place value) position =
      if place.val = position then value else read bits position := by
  unfold read
  rw [Vector.getElem?_set]
  split <;> rfl

/-! ## Parity bits -/

/-- A coverage changes its own parity bit and nothing else. -/
theorem read_cover (bits : Vector Bool wordBits) (coverage : Coverage) (position : Nat) :
    read (cover bits coverage) position =
      if coverage.bit.position.val = position then coverage.parity (read bits)
      else read bits position :=
  read_set bits coverage.bit.position _ position

theorem read_foldl_cover (coverages : List Coverage) (bits : Vector Bool wordBits)
    {position : Nat} (outside : ∀ coverage ∈ coverages, coverage.bit.position.val ≠ position) :
    read (coverages.foldl cover bits) position = read bits position := by
  induction coverages generalizing bits with
  | nil => rfl
  | cons coverage coverages ih =>
      have here := outside coverage List.mem_cons_self
      have later := fun other member => outside other (List.mem_cons_of_mem coverage member)
      rw [List.foldl_cons, ih (cover bits coverage) later, read_cover, if_neg here]

/-! ## Inversions -/

theorem read_invert_one (bits : Vector Bool wordBits) (place : Fin wordBits) (position : Nat) :
    read (bits.set place (!bits.get place)) position =
      (read bits position ^^ decide (place.val = position)) := by
  rw [read_set]
  by_cases here : place.val = position
  · subst here
    simp [read_place]
  · simp [here]

/-- Distinct parity bits stand at distinct positions, so no inversion undoes another. -/
theorem read_foldl_invert (parityBits : List ParityBit) (distinct : parityBits.Nodup)
    (bits : Vector Bool wordBits) (position : Nat) :
    read (parityBits.foldl
        (fun bits bit => bits.set bit.position (!bits.get bit.position) bit.position.isLt) bits)
        position =
      (read bits position ^^ decide (position ∈ parityBits.map fun bit => bit.position.val)) := by
  induction parityBits generalizing bits with
  | nil => simp
  | cons first rest ih =>
      have parts := List.nodup_cons.mp distinct
      rw [List.foldl_cons, ih parts.2, read_invert_one]
      by_cases here : first.position.val = position
      · have absent : position ∉ rest.map fun bit => bit.position.val := by
          intro found
          rcases List.mem_map.mp found with ⟨other, member, equal⟩
          have same := Fin.ext (here.trans equal.symm)
          exact parts.1 (ParityBit.position_injective same ▸ member)
        simp [here, absent]
      · simp [here, Ne.symm here]

theorem bit_invert (word : Word) (flags : ParityFlags) (position : Nat) :
    (word.invert flags).bit position =
      (word.bit position ^^ decide (position ∈ flags.positions)) :=
  read_foldl_invert flags.members flags.nodup_members word.bits position

theorem bit_pack (record : Record) (position : Nat) :
    (pack record).bit position =
      ((packRegular record).bit position ^^
        decide (position ∈ (Erratum.invertedAt record.address.toNat).positions)) :=
  bit_invert (packRegular record) _ position

end Word

namespace Erratum

/-- The errata of the two addresses, and none elsewhere. -/
theorem invertedAt_eq (address : Nat) :
    invertedAt address =
      if address = 0xBA0 then .ofBits [.pa, .pc] else if address = 0xB60 then .all else .empty := by
  by_cases first : address = 0xBA0
  · subst first
    decide
  · by_cases second : address = 0xB60
    · subst second
      decide
    · have others : ∀ erratum ∈ all, ¬ erratum.address = address := by
        intro erratum member
        rcases List.mem_pair.mp member with rfl | rfl
        · exact Ne.symm first
        · exact Ne.symm second
      rw [if_neg first, if_neg second, invertedAt, List.filter_eq_nil_iff.mpr]
      · rfl
      · intro erratum member found
        exact others erratum member (beq_iff_eq.mp found)

/-- The positions at which the word of an address is inverted. -/
theorem positions_invertedAt (address : Nat) :
    (invertedAt address).positions =
      if address = 0xBA0 then [8, 33] else if address = 0xB60 then [0, 7, 8, 33] else [] := by
  rw [invertedAt_eq]
  split
  · decide
  · split <;> decide

theorem pa_mem_positions_invertedAt (address : Nat) :
    8 ∈ (invertedAt address).positions ↔ address = 0xBA0 ∨ address = 0xB60 := by
  rw [positions_invertedAt]
  split
  · simp [*]
  · split <;> simp [*]

end Erratum

end Microcode
