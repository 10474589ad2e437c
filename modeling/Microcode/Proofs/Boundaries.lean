import Microcode.Conversion.Run
import Mathlib.Data.List.DropRight

namespace Microcode

/-!
Boundaries between lines.

Octets that are empty or end with a line feed consist of whole lines.  What is put behind
them begins a line of its own, so the lines of both parts are those of the parts one after
the other.  Any octets fall into a whole part and an unfinished line.
-/

namespace Split

/-- No line is left unfinished. -/
def Whole (bytes : Bytes) : Prop :=
  bytes = [] ∨ bytes.getLast? = some Octet.lineFeed

/-- One part is the longest beginning of some octets that has only whole lines. -/
def LongestWhole (bytes part : Bytes) : Prop :=
  part <+: bytes ∧ Whole part ∧ ∀ other, other <+: bytes → Whole other → other.length ≤ part.length

/-- The octets up to the last line feed. -/
def wholePart (bytes : Bytes) : Bytes :=
  bytes.rdropWhile (· != Octet.lineFeed)

/-- The octets after the last line feed. -/
def openPart (bytes : Bytes) : Bytes :=
  bytes.rtakeWhile (· != Octet.lineFeed)

theorem wholePart_append_openPart (bytes : Bytes) : wholePart bytes ++ openPart bytes = bytes :=
  List.rdropWhile_append_rtakeWhile

theorem lineFeed_not_mem_openPart (bytes : Bytes) : Octet.lineFeed ∉ openPart bytes := by
  intro member
  have different := List.mem_rtakeWhile_imp member
  rw [bne_self_eq_false] at different
  cases different

theorem whole_wholePart (bytes : Bytes) : Whole (wholePart bytes) := by
  by_cases empty : wholePart bytes = []
  · exact Or.inl empty
  · have last := List.rdropWhile_last_not (· != Octet.lineFeed) bytes empty
    rw [bne_iff_ne, not_not] at last
    exact Or.inr (List.getLast?_eq_some_getLast empty ▸ congrArg some last)

theorem prefix_wholePart (bytes : Bytes) : wholePart bytes <+: bytes :=
  List.rdropWhile_prefix _ bytes

/-- A longer beginning ends within the unfinished line, where no line feed is. -/
theorem longestWhole_wholePart (bytes : Bytes) : LongestWhole bytes (wholePart bytes) := by
  refine ⟨prefix_wholePart bytes, whole_wholePart bytes, ?_⟩
  intro other beginning whole
  by_contra longer
  have shorter : wholePart bytes <+: other :=
    List.prefix_of_prefix_length_le (prefix_wholePart bytes) beginning (by omega)
  rcases shorter with ⟨more, rfl⟩
  have some : more ≠ [] := by
    rintro rfl
    rw [List.append_nil] at longer
    exact longer (Nat.le_refl _)
  have within : more <+: openPart bytes := by
    have inside : wholePart bytes ++ more <+: wholePart bytes ++ openPart bytes := by
      rwa [wholePart_append_openPart]
    exact (List.prefix_append_right_inj _).mp inside
  rcases whole with empty | last
  · exact some (List.append_eq_nil_iff.mp empty).2
  · rw [List.getLast?_append_of_ne_nil _ some] at last
    exact lineFeed_not_mem_openPart bytes (within.mem (List.mem_of_getLast? last))

/-! ## The lines of two parts -/

theorem pieces_of_not_mem {bytes : Bytes} (unbroken : Octet.lineFeed ∉ bytes) :
    pieces bytes = [bytes] := by
  have alone : ([Octet.lineFeed].intercalate [bytes]).splitOn Octet.lineFeed = [bytes] :=
    List.splitOn_intercalate Octet.lineFeed (List.forall_mem_singleton.mpr unbroken)
      (List.cons_ne_nil _ _)
  rwa [List.intercalate_singleton] at alone

theorem ended_of_not_mem {bytes : Bytes} (unbroken : Octet.lineFeed ∉ bytes) :
    ended bytes = [] := by
  rw [ended, pieces_of_not_mem unbroken, List.dropLast_singleton]

theorem lines_concat (bytes : Bytes) : lines (bytes ++ [Octet.lineFeed]) = pieces bytes := by
  rw [lines_append bytes []]
  exact List.append_nil _

/-- Texts that hold no line feed, with one behind each, are lines. -/
theorem lines_flatMap {texts : List Bytes} (unbroken : ∀ text ∈ texts, Octet.lineFeed ∉ text) :
    lines (texts.flatMap (· ++ [Octet.lineFeed])) = texts := by
  induction texts with
  | nil => rfl
  | cons text texts ih =>
      have parts := List.forall_mem_cons.mp unbroken
      rw [List.flatMap_cons, List.append_assoc, List.singleton_append, lines_append,
        pieces_of_not_mem parts.1, ih parts.2, List.singleton_append]

theorem lines_append_of_whole {first : Bytes} (whole : Whole first) (second : Bytes) :
    lines (first ++ second) = lines first ++ lines second := by
  rcases whole with rfl | last
  · rfl
  · rcases List.getLast?_eq_some_iff.mp last with ⟨before, rfl⟩
    rw [lines_concat, List.append_assoc, List.singleton_append, lines_append]

theorem ended_append_of_whole {first : Bytes} (whole : Whole first) (second : Bytes) :
    ended (first ++ second) = lines first ++ ended second := by
  rcases whole with rfl | last
  · rfl
  · rcases List.getLast?_eq_some_iff.mp last with ⟨before, rfl⟩
    rw [lines_concat, List.append_assoc, List.singleton_append, ended_append]

end Split

/-- The source with other octets in front of its own. -/
def Source.after (source : Source) (bytes : Bytes) : Source :=
  { source with bytes := bytes ++ source.bytes }

theorem Source.lines_after {bytes : Bytes} (whole : Split.Whole bytes) (source : Source) :
    (source.after bytes).lines = Split.lines bytes ++ source.lines := by
  rcases source with ⟨bytes, fault⟩
  cases fault with
  | none => exact Split.lines_append_of_whole whole bytes
  | some cause => exact Split.ended_append_of_whole whole bytes

end Microcode
