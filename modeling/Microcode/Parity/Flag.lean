import Microcode.Numeral.Unsigned
import Microcode.Text.Blank
import Microcode.Word.Size

namespace Microcode

/-!
The four parity bits of a control word, and sets of them.
-/

inductive ParityBit where
  /-- The parity of the next address, CN. -/
  | pn
  /-- The parity of the first half of the word. -/
  | ps
  /-- The parity of the word's own address. -/
  | pa
  /-- The parity of the second half of the word. -/
  | pc
  deriving DecidableEq, Repr

namespace ParityBit

def all : List ParityBit :=
  [pn, ps, pa, pc]

def name : ParityBit → String
  | pn => "PN"
  | ps => "PS"
  | pa => "PA"
  | pc => "PC"

def ofName? (name : String) : Option ParityBit :=
  all.find? fun bit => bit.name == name

/-- Where the bit stands in a word. -/
def position : ParityBit → Fin wordBits
  | pn => 0
  | ps => 7
  | pa => 8
  | pc => 33

/-- The bit's place in a set. -/
def mask : ParityBit → UInt8
  | pn => 1
  | ps => 2
  | pa => 4
  | pc => 8

end ParityBit

/-- A set of parity bits.  The four high places belong to no parity bit; a set that
was read from outside may fill them. -/
structure ParityFlags where
  places : UInt8
  deriving DecidableEq, Repr

namespace ParityFlags

def empty : ParityFlags where
  places := 0

def single (bit : ParityBit) : ParityFlags where
  places := bit.mask

def union (left right : ParityFlags) : ParityFlags where
  places := left.places ||| right.places

def ofBits (bits : List ParityBit) : ParityFlags :=
  bits.foldl (fun flags bit => flags.union (single bit)) empty

def all : ParityFlags :=
  ofBits ParityBit.all

def contains (flags : ParityFlags) (bit : ParityBit) : Bool :=
  flags.places &&& bit.mask != 0

/-- The parity bits of a set, in the order of their positions. -/
def members (flags : ParityFlags) : List ParityBit :=
  ParityBit.all.filter flags.contains

/-- The set without the places that belong to no parity bit. -/
def known (flags : ParityFlags) : ParityFlags where
  places := flags.places &&& all.places

/-- The places that belong to no parity bit. -/
def unknown (flags : ParityFlags) : UInt8 :=
  flags.places &&& ~~~all.places

/-- The set itself, unless it fills a place that belongs to no parity bit. -/
def onlyKnown? (flags : ParityFlags) : Option ParityFlags :=
  if flags.unknown = 0 then some flags else none

def isEmpty (flags : ParityFlags) : Bool :=
  flags.places == 0

def hasAll (flags : ParityFlags) : Bool :=
  flags.known == all

/-- The one parity bit of a set that holds nothing else. -/
def single? (flags : ParityFlags) : Option ParityBit :=
  ParityBit.all.find? fun bit => single bit == flags

/-- The names of the parity bits, then the remaining places as a number. -/
def text (flags : ParityFlags) : String :=
  let names := flags.members.map ParityBit.name
  let rest :=
    if flags.unknown = 0 then []
    else ["0x" ++ String.ofList (Nat.toDigits 16 flags.unknown.toNat)]
  " | ".intercalate (names ++ rest)

/-- A name, or a number after its radix mark. -/
def ofWord? (word : String) : Option ParityFlags :=
  match word.toList with
  | '0' :: 'x' :: digits =>
      (Unsigned.parse? 16 256 (String.ofList digits)).map fun places => ⟨places.toUInt8⟩
  | _ => (ParityBit.ofName? word).map single

/-- Words between bars, with blanks around them.  A blank text is the empty set, but
no word may be missing between bars. -/
def ofText? (text : String) : Option ParityFlags :=
  if (Blank.trim text).isEmpty then some empty
  else
    (text.toList.splitOn '|').foldlM
      (fun flags word => (ofWord? (Blank.trim (String.ofList word))).map flags.union) empty

end ParityFlags

end Microcode
