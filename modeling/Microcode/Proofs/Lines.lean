import Microcode.Listing.Split
import Microcode.Text.Blank
import Mathlib.Data.List.TakeWhile

namespace Microcode

/-!
What the lines of some octets are, and what is left of a text without its end, both
without regard to how they are found.
-/

namespace Blank

/-- The division of a text in front of its last run of unwanted characters. -/
def TrimmedOf (unwanted : Char → Bool) (full text : String) : Prop :=
  ∃ trailing : List Char, full.toList = text.toList ++ trailing ∧
    (∀ char ∈ trailing, unwanted char = true) ∧
    ∀ char, text.toList.getLast? = some char → unwanted char = false

/-- There is only one such division. -/
theorem trimmedOf_iff {unwanted : Char → Bool} {full text : String} :
    TrimmedOf unwanted full text ↔ dropTrailing unwanted full = text := by
  constructor
  · rintro ⟨trailing, whole, dropped, kept⟩
    have all : ∀ char ∈ trailing.reverse, unwanted char = true :=
      fun char member => dropped char (List.mem_reverse.mp member)
    have ends : text.toList.reverse.dropWhile unwanted = text.toList.reverse := by
      cases reversed : text.toList.reverse with
      | nil => rfl
      | cons last others =>
          have wanted := kept last (by rw [← List.head?_reverse, reversed, List.head?_cons])
          exact List.dropWhile_cons_of_neg (by rw [wanted]; decide)
    rw [dropTrailing, whole, List.reverse_append, List.dropWhile_append_of_pos all, ends,
      List.reverse_reverse, String.ofList_toList]
  · rintro rfl
    have parts := List.takeWhile_append_dropWhile (p := unwanted) (l := full.toList.reverse)
    refine ⟨(full.toList.reverse.takeWhile unwanted).reverse, ?_, ?_, ?_⟩
    · rw [dropTrailing, String.toList_ofList, ← List.reverse_append, parts, List.reverse_reverse]
    · intro char member
      exact List.mem_takeWhile_imp (List.mem_reverse.mp member)
    · intro char last
      rw [dropTrailing, String.toList_ofList, List.getLast?_reverse] at last
      have first := List.head?_dropWhile_not unwanted full.toList.reverse
      rwa [last] at first

theorem dropTrailing_push {unwanted : Char → Bool} {char : Char} (dropped : unwanted char = true)
    (text : String) : dropTrailing unwanted (text.push char) = dropTrailing unwanted text := by
  rw [dropTrailing, dropTrailing, String.toList_push, List.reverse_concat,
    List.dropWhile_cons_of_pos dropped]

end Blank

namespace Split

/-- The division of some octets into lines.  Joined by line feeds, the pieces make up
the octets again.  Each is a line, unless it is the last one and empty. -/
def LinesOf (bytes : Bytes) (lines : List Bytes) : Prop :=
  ∃ pieces : List Bytes, pieces ≠ [] ∧ (∀ piece ∈ pieces, Octet.lineFeed ∉ piece) ∧
    [Octet.lineFeed].intercalate pieces = bytes ∧
    lines = if pieces.getLast? = some [] then pieces.dropLast else pieces

theorem not_mem_pieces (bytes : Bytes) : ∀ piece ∈ pieces bytes, Octet.lineFeed ∉ piece := by
  induction bytes with
  | nil => simp [pieces]
  | cons octet bytes ih =>
      rw [pieces, List.splitOn_cons_eq_if_modifyHead, ← pieces]
      by_cases feed : octet = Octet.lineFeed
      · simpa [feed] using ih
      · cases parts : pieces bytes with
        | nil => exact absurd parts (pieces_ne_nil bytes)
        | cons first others =>
            rw [parts] at ih
            have clean := List.forall_mem_cons.mp ih
            simp only [beq_iff_eq, feed, if_false, List.modifyHead_cons]
            refine List.forall_mem_cons.mpr ⟨?_, clean.2⟩
            rw [List.mem_cons, not_or]
            exact ⟨Ne.symm feed, clean.1⟩

theorem lines_eq_of_getLast? (bytes : Bytes) :
    lines bytes =
      if (pieces bytes).getLast? = some [] then (pieces bytes).dropLast else pieces bytes := by
  cases last : (pieces bytes).getLast? with
  | none => exact absurd (List.getLast?_eq_none_iff.mp last) (pieces_ne_nil bytes)
  | some piece =>
      rcases List.getLast?_eq_some_iff.mp last with ⟨before, whole⟩
      have behind : rest bytes = piece := by
        rw [rest, List.getLastD_eq_getLast?, last, Option.getD_some]
      rw [lines, behind, ended, whole, List.dropLast_concat]
      cases piece <;> simp

/-- Octets are divided into lines in exactly one way. -/
theorem linesOf_iff {bytes : Bytes} {found : List Bytes} :
    LinesOf bytes found ↔ lines bytes = found := by
  constructor
  · rintro ⟨divided, nonempty, clean, joined, rfl⟩
    have same : pieces bytes = divided := by
      rw [pieces, ← joined]
      exact List.splitOn_intercalate Octet.lineFeed clean nonempty
    rw [lines_eq_of_getLast?, same]
  · rintro rfl
    exact ⟨pieces bytes, pieces_ne_nil bytes, not_mem_pieces bytes,
      List.intercalate_splitOn Octet.lineFeed, lines_eq_of_getLast? bytes⟩

end Split

end Microcode
