import Microcode.Proofs.GuardedLine
import Microcode.Proofs.Identity
import Microcode.Proofs.Storage

namespace Microcode
namespace Guarded

/-!
Words under guard.

A word is built here in the way in which a machine does it: it starts out clear, each field writes
the bits that its columns give, one after the other and as many as there are, and then the parity
bits are computed from what is read back and stored.  Fields may write up to the last bit that
carries meaning; all other reads and writes may reach up to the last bit of the word.  Where one
would go further, there is no word.

Whatever a field writes at a position is the bit of the record there.  So it does not matter in
which order the fields write, and behind all of them the bits are those of the record.
-/

/-- Write a bit at a position in front of a limit. -/
def write (limit : Nat) (bits : Vector Bool wordBits) (position : Nat) (value : Bool) :
    Option (Vector Bool wordBits) :=
  if inside : position < limit ∧ position < wordBits then some (bits.set position value inside.2)
  else none

/-- Read the bit at a position, if the word has it. -/
def fetch (bits : Vector Bool wordBits) (position : Nat) : Option Bool :=
  bits[position]?

/-- Write bits side by side. -/
def writeFrom (limit start : Nat) : List Bool → Vector Bool wordBits →
    Option (Vector Bool wordBits)
  | [], bits => some bits
  | value :: values, bits => do
      let next ← write limit bits start value
      writeFrom limit (start + 1) values next

/-- What a field puts into a word: the high bits of a numeral, or a whole bit group. -/
def contents (kind : FieldKind) (text : Bytes) : List Bool :=
  match kind with
  | .hex => (Binary.bits (Hex.value text).toBitVec 8).take Slot.next.length
  | .bits => text.map Binary.bit

def fill (octets : Bytes) (bits : Vector Bool wordBits) (slot : Slot) :
    Option (Vector Bool wordBits) := do
  let found ← text octets slot.field
  writeFrom meaningfulBits slot.start (contents slot.field.kind found) bits

def cover (bits : Vector Bool wordBits) (coverage : Coverage) :
    Option (Vector Bool wordBits) := do
  let covered ← coverage.positions.mapM (fetch bits)
  write wordBits bits coverage.bit.position (parity true covered)

def invert (bits : Vector Bool wordBits) (bit : ParityBit) : Option (Vector Bool wordBits) := do
  let current ← fetch bits bit.position
  write wordBits bits bit.position (!current)

def packRegular (octets : Bytes) : Option Word := do
  let digits ← text octets .addr
  let address := BitVec.ofNat addressBits (Hex.value digits).toNat
  let fields ← Slot.all.foldlM (fill octets) (.replicate wordBits false)
  let checked ← write wordBits fields ParityBit.pa.position
    (parity true (Binary.bits address addressBits))
  let bits ← Coverage.all.foldlM cover checked
  return ⟨address, bits⟩

def pack (octets : Bytes) : Option Word := do
  let word ← packRegular octets
  let bits ← (Erratum.invertedAt word.address.toNat).members.foldlM invert word.bits
  return ⟨word.address, bits⟩

/-- Steps that are never refused make up a run that is not refused. -/
theorem foldlM_eq_some {State Item : Type} {step : State → Item → Option State}
    {next : State → Item → State} (items : List Item)
    (taken : ∀ item ∈ items, ∀ state, step state item = some (next state item)) (state : State) :
    items.foldlM step state = some (items.foldl next state) := by
  induction items generalizing state with
  | nil => rfl
  | cons item items ih =>
      have later := fun other member => taken other (List.mem_cons_of_mem item member)
      rw [List.foldlM_cons, taken item List.mem_cons_self, List.foldl_cons]
      exact ih later (next state item)

/-! ## Single bits -/

section Bits

variable {limit : Nat} {bits : Vector Bool wordBits} {position : Nat} {value : Bool}

theorem write_eq_none_iff :
    write limit bits position value = none ↔ ¬ (position < limit ∧ position < wordBits) := by
  unfold write
  split
  case isTrue inside => exact iff_of_false (Option.some_ne_none _) (not_not_intro inside)
  case isFalse outside => exact iff_of_true rfl outside

theorem write_eq_some (front : position < limit) (inside : position < wordBits) :
    write limit bits position value = some (bits.set position value) :=
  dif_pos ⟨front, inside⟩

theorem fetch_eq_none_iff : fetch bits position = none ↔ ¬ position < wordBits :=
  Vector.getElem?_eq_none_iff.trans Nat.not_lt.symm

theorem fetch_eq_some (inside : position < wordBits) :
    fetch bits position = some (Word.read bits position) := by
  rw [fetch, Word.read, Vector.getElem?_eq_getElem inside, Option.getD_some]

end Bits

/-! ## Fields -/

/-- Bits that are written side by side stand there afterwards, and all other bits are kept. -/
theorem writeFrom_spec {target : Nat → Bool} {limit start : Nat} {values : List Bool}
    (within : limit ≤ wordBits) (fits : start + values.length ≤ limit)
    (agree : ∀ offset < values.length, values.getD offset false = target (start + offset))
    (bits : Vector Bool wordBits) :
    ∃ after, writeFrom limit start values bits = some after ∧
      ∀ position, Word.read after position =
        if start ≤ position ∧ position < start + values.length then target position
        else Word.read bits position := by
  induction values generalizing start bits with
  | nil =>
      refine ⟨bits, rfl, fun position => (if_neg ?_).symm⟩
      exact fun between => Nat.not_lt.mpr between.1 between.2
  | cons value values ih =>
      rw [List.length_cons] at fits
      have inside : start < wordBits := by omega
      have first : value = target start := agree 0 (Nat.succ_pos _)
      have later : ∀ offset < values.length,
          values.getD offset false = target (start + 1 + offset) := by
        intro offset further
        rw [Nat.add_right_comm, Nat.add_assoc]
        exact agree (offset + 1) (Nat.succ_lt_succ further)
      rcases ih (by omega) later (bits.set start value) with ⟨after, written, reads⟩
      refine ⟨after, ?_, fun position => ?_⟩
      · rw [writeFrom, write_eq_some (by omega) inside]
        exact written
      · rw [reads, Word.read_set bits ⟨start, inside⟩, List.length_cons]
        by_cases here : start = position
        · subst here
          rw [if_neg (by omega), if_pos rfl, if_pos (by omega), first]
        · by_cases behind : start + 1 ≤ position ∧ position < start + 1 + values.length
          · rw [if_pos behind, if_pos (by omega)]
          · rw [if_neg behind, if_neg here, if_neg (by omega)]

section Fields

variable (record : Record)

theorem length_contents {slot : Slot} (member : slot ∈ Slot.all) :
    (contents slot.field.kind (record.text slot.field)).length = slot.length := by
  rcases Slot.eq_next_or_group member with rfl | ⟨field, start, placed, rfl⟩
  · rfl
  · rw [Field.kind_of_start? placed, contents, List.length_map, record.length_text]

/-- A field puts nothing else at a position than the bit of its record there. -/
theorem getD_contents {slot : Slot} (member : slot ∈ Slot.all) {offset : Nat}
    (inside : offset < slot.length) :
    (contents slot.field.kind (record.text slot.field)).getD offset false =
      record.bitAt (slot.start + offset) := by
  rw [record.bitAt_slot slot member inside]
  rcases Slot.eq_next_or_group member with rfl | ⟨field, start, placed, rfl⟩
  · change ((record.bits .cn).take Slot.next.length).getD offset false = _
    rw [List.getD_eq_getElem?_getD, List.getElem?_take_of_lt inside,
      ← List.getD_eq_getElem?_getD]
    rfl
  · dsimp only
    rw [record.bits_of_kind (Field.kind_of_start? placed), Field.kind_of_start? placed, contents]

theorem fill_record {slot : Slot} (member : slot ∈ Slot.all) (bits : Vector Bool wordBits) :
    ∃ after, fill record.octets bits slot = some after ∧
      ∀ position, Word.read after position =
        if slot.covers position then record.bitAt position else Word.read bits position := by
  have length := length_contents record member
  have fits := Slot.start_add_length_le member
  rw [← length] at fits
  have agree : ∀ offset < (contents slot.field.kind (record.text slot.field)).length,
      (contents slot.field.kind (record.text slot.field)).getD offset false =
        record.bitAt (slot.start + offset) := by
    intro offset inside
    rw [length] at inside
    exact getD_contents record member inside
  rcases writeFrom_spec (by decide) fits agree bits with ⟨after, run, reads⟩
  refine ⟨after, ?_, fun position => ?_⟩
  · rw [fill, text_record]
    exact run
  · rw [reads, length]
    simp only [Slot.covers, Bool.and_eq_true, decide_eq_true_eq]

/-- Behind some fields, their positions hold the bits of the record. -/
theorem foldlM_fill_record {slots : List Slot} (members : ∀ slot ∈ slots, slot ∈ Slot.all)
    (bits : Vector Bool wordBits) :
    ∃ after, slots.foldlM (fill record.octets) bits = some after ∧
      ∀ position, Word.read after position =
        if slots.any fun slot => slot.covers position then record.bitAt position
        else Word.read bits position := by
  induction slots generalizing bits with
  | nil => exact ⟨bits, rfl, fun _ => rfl⟩
  | cons slot slots ih =>
      rcases fill_record record (members slot List.mem_cons_self) bits with ⟨next, here, first⟩
      rcases ih (fun other member => members other (List.mem_cons_of_mem slot member)) next with
        ⟨after, later, rest⟩
      refine ⟨after, ?_, fun position => ?_⟩
      · rw [List.foldlM_cons, here]
        exact later
      · rw [rest, first, List.any_cons]
        cases slot.covers position <;> cases slots.any fun slot => slot.covers position <;> rfl

/-- The fields write no more and no less than the bits of the record. -/
theorem fields_record :
    Slot.all.foldlM (fill record.octets) (.replicate wordBits false) =
      some (Word.fieldBits record) := by
  rcases foldlM_fill_record record (fun _ member => member) (.replicate wordBits false) with
    ⟨after, run, reads⟩
  rw [run]
  refine congrArg some (Word.ext_read fun position inside => ?_)
  rw [reads, Word.read_fieldBits]
  split
  case isTrue => rfl
  case isFalse apart =>
    have outside : Slot.at? position = none := by
      apply List.find?_eq_none.mpr
      simpa using apart
    rw [Record.bitAt, outside, Word.read, Vector.getElem?_eq_getElem inside,
      Vector.getElem_replicate, Option.getD_some]

end Fields

/-! ## Parity bits -/

theorem position_lt_of_mem {coverage : Coverage} (member : coverage ∈ Coverage.all)
    {position : Nat} (covered : position ∈ coverage.positions) : position < wordBits := by
  have inside : ∀ coverage ∈ Coverage.all, ∀ position ∈ coverage.positions,
      position < wordBits := by
    decide
  exact inside coverage member position covered

theorem cover_eq {coverage : Coverage} (member : coverage ∈ Coverage.all)
    (bits : Vector Bool wordBits) : cover bits coverage = some (Word.cover bits coverage) := by
  have read : coverage.positions.mapM (fetch bits) =
      some (coverage.positions.map (Word.read bits)) := by
    apply mapM_eq_some_iff.mpr
    apply List.forall₂_map_right_iff.mpr
    exact List.forall₂_same.mpr fun position covered =>
      fetch_eq_some (position_lt_of_mem member covered)
  rw [cover, read]
  exact write_eq_some coverage.bit.position.isLt coverage.bit.position.isLt

theorem invert_eq (bits : Vector Bool wordBits) (bit : ParityBit) :
    invert bits bit =
      some (bits.set bit.position (!bits.get bit.position) bit.position.isLt) := by
  have inside := bit.position.isLt
  rw [invert, fetch, Vector.getElem?_eq_getElem inside]
  exact write_eq_some inside inside

theorem packRegular_record (record : Record) :
    packRegular record.octets = some (Word.packRegular record) := by
  let checked := (Word.fieldBits record).set ParityBit.pa.position (parity true (record.bits .addr))
  have stored : write wordBits (Word.fieldBits record) ParityBit.pa.position
      (parity true (record.bits .addr)) = some checked :=
    write_eq_some ParityBit.pa.position.isLt ParityBit.pa.position.isLt
  have covered : Coverage.all.foldlM cover checked = some (Coverage.all.foldl Word.cover checked) :=
    foldlM_eq_some Coverage.all (fun coverage member bits => cover_eq member bits) checked
  simp only [packRegular, text_record, Option.bind_eq_bind, Option.bind_some, fields_record]
  change (write wordBits (Word.fieldBits record) ParityBit.pa.position
    (parity true (record.bits .addr))).bind _ = _
  rw [stored, Option.bind_some, covered]
  rfl

theorem pack_record (record : Record) : pack record.octets = some (Word.pack record) := by
  let parityBits := (Erratum.invertedAt record.address.toNat).members
  have inverted := foldlM_eq_some parityBits (fun bit _ bits => invert_eq bits bit)
    (Word.packRegular record).bits
  simp only [pack, packRegular_record, Option.bind_eq_bind, Option.bind_some]
  change (parityBits.foldlM invert (Word.packRegular record).bits).bind _ = _
  rw [inverted]
  rfl

end Guarded
end Microcode
