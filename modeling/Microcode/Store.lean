import Microcode.Word.Basic

namespace Microcode

/-!
The control store: words in the order in which they came, up to a limit.
-/

structure Store where
  limit : Nat
  words : Array Word
  size_le_limit : words.size ≤ limit
  deriving DecidableEq

/-- No room is left for a word. -/
structure StoreFull where
  limit : Nat
  deriving DecidableEq, Repr

def StoreFull.message (full : StoreFull) : String :=
  s!"control store full: more than {full.limit} entries"

namespace Store

/-- As many words as an address of twelve bits tells apart. -/
abbrev standardLimit : Nat := 4096

def empty (limit : Nat) : Store where
  limit := limit
  words := #[]
  size_le_limit := Nat.zero_le limit

def size (store : Store) : Nat :=
  store.words.size

def isEmpty (store : Store) : Bool :=
  store.words.isEmpty

def get? (store : Store) (index : Nat) : Option Word :=
  store.words[index]?

def toList (store : Store) : List Word :=
  store.words.toList

/-- Append a word where there is room for it. -/
def append (store : Store) (word : Word) (room : store.words.size < store.limit) : Store where
  limit := store.limit
  words := store.words.push word
  size_le_limit := by
    rw [Array.size_push]
    exact room

theorem toList_append (store : Store) (word : Word) (room : store.words.size < store.limit) :
    (store.append word room).toList = store.toList ++ [word] := by
  simp [append, toList]

/-- Try to append a word: how that goes, and the store behind it.  The same address may occur
any number of times. -/
def attempt (store : Store) (word : Word) : Except StoreFull Unit × Store :=
  if room : store.words.size < store.limit then (.ok (), store.append word room)
  else (.error ⟨store.limit⟩, store)

theorem attempt_of_room (store : Store) (word : Word) (room : store.words.size < store.limit) :
    store.attempt word = (.ok (), store.append word room) :=
  dif_pos room

theorem attempt_of_full (store : Store) (word : Word) (full : store.limit ≤ store.words.size) :
    store.attempt word = (.error ⟨store.limit⟩, store) :=
  dif_neg (Nat.not_lt.mpr full)

/-- Append a word, where no one goes on without it. -/
def push (store : Store) (word : Word) : Except StoreFull Store :=
  match store.attempt word with
  | (.ok (), next) => .ok next
  | (.error full, _) => .error full

theorem push_of_room (store : Store) (word : Word) (room : store.words.size < store.limit) :
    store.push word = .ok (store.append word room) := by
  rw [push, attempt_of_room store word room]

theorem push_of_full (store : Store) (word : Word) (full : store.limit ≤ store.words.size) :
    store.push word = .error ⟨store.limit⟩ := by
  rw [push, attempt_of_full store word full]

/-- Append a word if there is room, and go on without it otherwise. -/
def offer (store : Store) (word : Word) : Store :=
  (store.attempt word).2

end Store

end Microcode
