import Microcode.Proofs.Boundaries
import Microcode.Proofs.Classification
import Microcode.Proofs.Resumption
import Mathlib.Data.List.Forall2

namespace Microcode

/-!
How the lines of a listing end.

A line may end with a carriage return in front of its line feed, and the last line may do
without a line feed.  A reading drops one carriage return, and the text of a line in a message is
given without any.  So a line that has no carriage return of its own means the same with one
behind it, and a conversion takes the lines of both listings in the same steps.
-/

namespace Split

/-- An octet string with carriage returns put in at ends of its lines: in front of any of its line
feeds, and at the very end behind another octet. -/
inductive Returned : Bytes → Bytes → Prop where
  | done : Returned [] []
  | keep (octet : UInt8) {bytes returned : Bytes} (more : Returned bytes returned) :
      Returned (octet :: bytes) (octet :: returned)
  | feed {bytes returned : Bytes} (more : Returned bytes returned) :
      Returned (Octet.lineFeed :: bytes)
        (Octet.carriageReturn :: Octet.lineFeed :: returned)
  | last (octet : UInt8) (unended : octet ≠ Octet.lineFeed) :
      Returned [octet] [octet, Octet.carriageReturn]

/-- No return has to be put in anywhere. -/
theorem Returned.append {bytes returned : Bytes} (more : Returned bytes returned) (front : Bytes) :
    Returned (front ++ bytes) (front ++ returned) := by
  induction front with
  | nil => exact more
  | cons octet front ih => exact .keep octet ih

/-- A line, or the line with a carriage return behind it. -/
def SameButReturn (line returned : Bytes) : Prop :=
  returned = line ∨ returned = line ++ [Octet.carriageReturn]

theorem SameButReturn.cons {line returned : Bytes} (same : SameButReturn line returned)
    (octet : UInt8) : SameButReturn (octet :: line) (octet :: returned) :=
  same.imp (congrArg (octet :: ·)) (congrArg (octet :: ·))

/-! ## The first octet -/

/-- Some lines with an octet put in front of the first, which may have to be begun. -/
def beginWith (octet : UInt8) : List Bytes → List Bytes
  | [] => [[octet]]
  | first :: others => (octet :: first) :: others

theorem lines_feed (bytes : Bytes) : lines (Octet.lineFeed :: bytes) = [] :: lines bytes :=
  lines_append [] bytes

theorem ended_feed (bytes : Bytes) : ended (Octet.lineFeed :: bytes) = [] :: ended bytes :=
  ended_append [] bytes

section Within

variable {octet : UInt8} (within : octet ≠ Octet.lineFeed) (bytes : Bytes)

include within

theorem pieces_cons : pieces (octet :: bytes) = (pieces bytes).modifyHead (octet :: ·) := by
  rw [pieces, List.splitOn_cons_eq_if_modifyHead, ← pieces, if_neg (by simpa using within)]

theorem ended_cons : ended (octet :: bytes) = (ended bytes).modifyHead (octet :: ·) := by
  rw [ended, ended, pieces_cons within]
  rcases pieces bytes with _ | ⟨first, _ | ⟨second, others⟩⟩ <;> rfl

theorem lines_cons : lines (octet :: bytes) = beginWith octet (lines bytes) := by
  rw [lines_eq_of_getLast?, lines_eq_of_getLast?, pieces_cons within]
  rcases parts : pieces bytes with _ | ⟨first, _ | ⟨second, others⟩⟩
  · exact absurd parts (pieces_ne_nil bytes)
  · cases first <;> simp [beginWith]
  · by_cases last : (second :: others).getLast? = some []
    · simp [last, beginWith]
    · simp [last, beginWith]

end Within

/-! ## Lines with and without a carriage return -/

section Related

variable {left right : List Bytes} (same : List.Forall₂ SameButReturn left right)

include same

theorem forall₂_beginWith (octet : UInt8) :
    List.Forall₂ SameButReturn (beginWith octet left) (beginWith octet right) := by
  cases same with
  | nil => exact .cons (Or.inl rfl) .nil
  | cons first others => exact .cons (first.cons octet) others

theorem forall₂_modifyHead (octet : UInt8) :
    List.Forall₂ SameButReturn (left.modifyHead (octet :: ·)) (right.modifyHead (octet :: ·)) := by
  cases same with
  | nil => exact .nil
  | cons first others => exact .cons (first.cons octet) others

end Related

/-- Carriage returns at ends of lines neither add nor divide lines. -/
theorem Returned.forall₂_lines {bytes returned : Bytes} (inserted : Returned bytes returned) :
    List.Forall₂ SameButReturn (lines bytes) (lines returned) ∧
      List.Forall₂ SameButReturn (ended bytes) (ended returned) := by
  have return_ne_feed : Octet.carriageReturn ≠ Octet.lineFeed := by decide
  induction inserted with
  | done => exact ⟨.nil, .nil⟩
  | @keep octet bytes returned _ ih =>
      by_cases feed : octet = Octet.lineFeed
      · subst feed
        rw [lines_feed, lines_feed, ended_feed, ended_feed]
        exact ⟨.cons (Or.inl rfl) ih.1, .cons (Or.inl rfl) ih.2⟩
      · rw [lines_cons feed, lines_cons feed, ended_cons feed, ended_cons feed]
        exact ⟨forall₂_beginWith ih.1 octet, forall₂_modifyHead ih.2 octet⟩
  | @feed bytes returned _ ih =>
      rw [lines_cons return_ne_feed, ended_cons return_ne_feed, lines_feed, lines_feed, ended_feed,
        ended_feed]
      exact ⟨.cons (Or.inr rfl) ih.1, .cons (Or.inr rfl) ih.2⟩
  | last octet unended =>
      rw [lines_cons unended, lines_cons unended, ended_cons unended, ended_cons unended]
      exact ⟨.cons (Or.inr rfl) .nil, .nil⟩

theorem lines_subset_pieces (bytes : Bytes) : lines bytes ⊆ pieces bytes := by
  rw [lines_eq_of_getLast?]
  split
  · exact List.dropLast_subset _
  · exact List.Subset.refl _

/-- A line feed behind an unfinished line adds no line. -/
theorem lines_concat_of_not_whole {bytes : Bytes} (unfinished : ¬ Whole bytes) :
    lines (bytes ++ [Octet.lineFeed]) = lines bytes := by
  have unbroken := lineFeed_not_mem_openPart bytes
  have opened : openPart bytes ≠ [] := by
    intro none
    have all := wholePart_append_openPart bytes
    rw [none, List.append_nil] at all
    exact unfinished (all ▸ whole_wholePart bytes)
  have alone : lines (openPart bytes) = [openPart bytes] := by
    rw [lines_eq_of_getLast?, pieces_of_not_mem unbroken, List.getLast?_singleton,
      if_neg (opened ∘ Option.some.inj)]
  calc
    lines (bytes ++ [Octet.lineFeed]) =
        lines (wholePart bytes ++ (openPart bytes ++ [Octet.lineFeed])) := by
      rw [← List.append_assoc, wholePart_append_openPart]
    _ = lines (wholePart bytes) ++ lines (openPart bytes) := by
      rw [lines_append_of_whole (whole_wholePart bytes), lines_concat, pieces_of_not_mem unbroken,
        alone]
    _ = lines bytes := by
      rw [← lines_append_of_whole (whole_wholePart bytes), wholePart_append_openPart]

end Split

/-- Carriage returns at ends of lines do not depend on whether the listing can be read to its
end. -/
theorem Source.forall₂_lines {bytes returned : Bytes} (inserted : Split.Returned bytes returned)
    (fault : Option String) :
    List.Forall₂ Split.SameButReturn (lines { bytes, fault })
      (lines { bytes := returned, fault }) := by
  cases fault with
  | none => exact inserted.forall₂_lines.1
  | some cause => exact inserted.forall₂_lines.2

theorem Source.lines_subset_pieces (source : Source) :
    source.lines ⊆ Split.pieces source.bytes := by
  rcases source with ⟨bytes, _ | cause⟩
  · exact Split.lines_subset_pieces bytes
  · exact List.dropLast_subset _

/-! ## Single lines -/

namespace Conversion

variable {settings : Settings} {line returned : Bytes}

theorem echo_concat (line : Bytes) : echo (line ++ [Octet.carriageReturn]) = echo line := by
  rw [echo, Utf8.decode_append_ascii line (by decide), Blank.dropTrailing_push (by decide), echo]

/-- A step depends on what a line is read as and, if it cannot be read, on its text. -/
theorem step_congr_line (same : reading settings returned = reading settings line)
    (echoed : echo returned = echo line) (progress : Progress) :
    step settings progress returned = step settings progress line := by
  rw [step, step, classify_eq_reading, classify_eq_reading, same, echoed]

theorem step_of_sameButReturn (bare : line.getLast? ≠ some Octet.carriageReturn)
    (same : Split.SameButReturn line returned) (progress : Progress) :
    step settings progress returned = step settings progress line := by
  rcases same with rfl | rfl
  · rfl
  · apply step_congr_line
    · apply Line.classify_congr
      rw [Line.dropReturn_concat, Line.dropReturn_eq_self bare]
    · exact echo_concat line

/-! ## Whole listings -/

theorem resume_of_sameButReturn {lines others : List Bytes}
    (same : List.Forall₂ Split.SameButReturn lines others)
    (bare : ∀ line ∈ lines, line.getLast? ≠ some Octet.carriageReturn) (progress : Progress) :
    resume settings progress others = resume settings progress lines := by
  induction same generalizing progress with
  | nil => rfl
  | cons first _ ih =>
      have parts := List.forall_mem_cons.mp bare
      rw [resume_cons, resume_cons, step_of_sameButReturn parts.1 first]
      exact congrArg _ (funext (ih parts.2))

theorem convert_congr_lines {source other : Source}
    (same : takeLines settings source.lines = takeLines settings other.lines)
    (fault : source.fault = other.fault) : convert settings source = convert settings other := by
  rw [convert, convert, same, fault]

/-- How lines end has no influence on a conversion.  Where no line ends with a carriage return,
one can be put in front of any line feeds and behind an unfinished last line; and such a line can be
finished by a line feed.  Either way the words, the counts and the log stay the same, and so does
a failure with its line number, its cause and the text of the line. -/
theorem line_ends_do_not_count (settings : Settings) (bytes : Bytes) :
    ((∀ piece ∈ Split.pieces bytes, piece.getLast? ≠ some Octet.carriageReturn) →
      ∀ returned, Split.Returned bytes returned → ∀ fault,
        convert settings { bytes := returned, fault } = convert settings { bytes, fault }) ∧
    (bytes ≠ [] → bytes.getLast? ≠ some Octet.lineFeed →
      convert settings { bytes := bytes ++ [Octet.lineFeed] } = convert settings { bytes }) := by
  constructor
  · intro bare returned inserted fault
    have lines : ∀ line ∈ Source.lines { bytes, fault },
        line.getLast? ≠ some Octet.carriageReturn :=
      fun line member => bare line (Source.lines_subset_pieces _ member)
    have same : takeLines settings (Source.lines { bytes := returned, fault }) =
        takeLines settings (Source.lines { bytes, fault }) :=
      resume_of_sameButReturn (Source.forall₂_lines inserted fault) lines (start settings)
    exact convert_congr_lines same rfl
  · intro nonempty unended
    have unfinished : ¬ Split.Whole bytes := not_or.mpr ⟨nonempty, unended⟩
    have same := congrArg (takeLines settings) (Split.lines_concat_of_not_whole unfinished)
    exact convert_congr_lines same rfl

/-- A comment that ends with an ill-formed octet, a record with a version, and a line that is
neither and not finished. -/
def plainEnds : Bytes :=
  [Octet.hash, 0xC3] ++ Octet.lineFeed :: (Utf8.encode
    " 104  F3 0001 0001 110 01 ???? ?? 0010 0110 000 00 00 000 0000 ? 0 0 1 # QA001:C2 A20" ++
      Octet.lineFeed :: ([Octet.blank] ++ [0xE2]))

/-- The same lines, of which the first and the last one end with a carriage return. -/
def mixedEnds : Bytes :=
  [Octet.hash, 0xC3] ++ Octet.carriageReturn :: Octet.lineFeed :: (Utf8.encode
    " 104  F3 0001 0001 110 01 ???? ?? 0010 0110 000 00 00 000 0000 ? 0 0 1 # QA001:C2 A20" ++
      Octet.lineFeed :: ([Octet.blank] ++ [0xE2, Octet.carriageReturn]))

theorem line_ends_do_not_count_in_mixedEnds :
    ((∀ piece ∈ Split.pieces plainEnds, piece.getLast? ≠ some Octet.carriageReturn) ∧
      Split.Returned plainEnds mixedEnds ∧
      (convert {} { bytes := mixedEnds }).result = .error (.format 3 " \uFFFD")) ∧
    plainEnds ≠ [] ∧ plainEnds.getLast? ≠ some Octet.lineFeed ∧
    (convert {} { bytes := plainEnds ++ [Octet.lineFeed] }).result =
      .error (.format 3 " \uFFFD") := by
  have bare : ∀ piece ∈ Split.pieces plainEnds, piece.getLast? ≠ some Octet.carriageReturn := by
    decide +kernel
  have inserted : Split.Returned plainEnds mixedEnds :=
    .append (.feed (.append (.keep _ (.append (.last 0xE2 (by decide)) _)) _)) _
  have nonempty : plainEnds ≠ [] := List.cons_ne_nil _ _
  have unended : plainEnds.getLast? ≠ some Octet.lineFeed := by decide
  have failed : (convert {} { bytes := plainEnds }).result = .error (.format 3 " \uFFFD") := by
    decide +kernel
  rcases line_ends_do_not_count {} plainEnds with ⟨returns, feed⟩
  refine ⟨⟨bare, inserted, ?_⟩, nonempty, unended, ?_⟩
  · rw [returns bare mixedEnds inserted none, failed]
  · rw [feed nonempty unended, failed]

end Conversion

end Microcode
