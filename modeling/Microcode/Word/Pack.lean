import Microcode.Listing.Record
import Microcode.Parity.Coverage
import Microcode.Parity.Erratum
import Microcode.Word.Basic

namespace Microcode

/-!
The control word of a record.

Every bit of a word has one origin: a bit of a field, a parity bit, or the end
mark, which is clear.
-/

/-- The positions from `start` on that hold the first `length` bits of a field. -/
structure Slot where
  field : Field
  start : Nat
  length : Nat
  deriving DecidableEq, Repr

namespace Slot

/-- The bit groups in the order of a word.  PK comes before CD here, although its
column is the last one. -/
def placement : List (Field × Nat) :=
  [(.ch, 9), (.cl, 13), (.cm, 17), (.cu, 20), (.ca, 22), (.cb, 26), (.ck, 28), (.pk, 32),
    (.cd, 34), (.cf, 38), (.cg, 41), (.cv, 43), (.cc, 45), (.cs, 48), (.aa, 52), (.as, 53),
    (.ak, 54)]

/-- The six high bits of the next address.  Its two low bits have no place in a
word. -/
def next : Slot where
  field := .cn
  start := 1
  length := 6

def all : List Slot :=
  next :: placement.map fun (field, start) => ⟨field, start, field.width⟩

def covers (slot : Slot) (position : Nat) : Bool :=
  slot.start ≤ position && position < slot.start + slot.length

/-- The slot that a position lies in. -/
def at? (position : Nat) : Option Slot :=
  all.find? fun slot => slot.covers position

end Slot

namespace Record

/-- The field bit at a position, or a clear bit where no field has its place. -/
def bitAt (record : Record) (position : Nat) : Bool :=
  match Slot.at? position with
  | some slot => (record.bits slot.field).getD (position - slot.start) false
  | none => false

end Record

namespace Word

/-- The field bits of a record, before any parity bit is computed. -/
def fieldBits (record : Record) : Vector Bool wordBits :=
  Vector.ofFn fun position => record.bitAt position

theorem getElem_fieldBits (record : Record) (position : Nat) (inside : position < wordBits) :
    (fieldBits record)[position] = record.bitAt position := by
  simp [fieldBits]

/-- Put a parity bit into a word, computed from the bits that stand there so far. -/
def cover (bits : Vector Bool wordBits) (coverage : Coverage) : Vector Bool wordBits :=
  bits.set coverage.bit.position (coverage.parity fun position => bits[position]?.getD false)

/-- The word of a record with every parity bit as its coverage demands. -/
def packRegular (record : Record) : Word where
  address := record.address
  bits :=
    let bits := (fieldBits record).set ParityBit.pa.position (parity true (record.bits .addr))
    Coverage.all.foldl cover bits

/-- The word of a record, as the hardware holds it. -/
def pack (record : Record) : Word :=
  (packRegular record).invert (Erratum.invertedAt record.address.toNat)

end Word

end Microcode
