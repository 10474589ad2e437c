import Microcode.Text.Octets

namespace Microcode
namespace Split

/-!
The lines of an octet string.

A line feed ends a line.  What follows the last line feed is a line of its own only
when there is something there.
-/

/-- The pieces before, between and after the line feeds. -/
def pieces (bytes : Bytes) : List Bytes :=
  bytes.splitOn Octet.lineFeed

theorem pieces_ne_nil (bytes : Bytes) : pieces bytes ≠ [] :=
  List.splitOnP_ne_nil _ bytes

theorem pieces_append (left right : Bytes) :
    pieces (left ++ Octet.lineFeed :: right) = pieces left ++ pieces right :=
  List.splitOnP_append_cons left right (by decide)

/-- The lines that a line feed ends. -/
def ended (bytes : Bytes) : List Bytes :=
  (pieces bytes).dropLast

/-- What follows the last line feed. -/
def rest (bytes : Bytes) : Bytes :=
  (pieces bytes).getLastD []

def lines (bytes : Bytes) : List Bytes :=
  if (rest bytes).isEmpty then ended bytes else ended bytes ++ [rest bytes]

theorem ended_append (left right : Bytes) :
    ended (left ++ Octet.lineFeed :: right) = pieces left ++ ended right := by
  rw [ended, pieces_append, List.dropLast_append_of_ne_nil (pieces_ne_nil right), ended]

theorem rest_append (left right : Bytes) :
    rest (left ++ Octet.lineFeed :: right) = rest right := by
  simp only [rest, pieces_append, List.getLastD_eq_getLast?, List.getLast?_append]
  cases last : (pieces right).getLast? with
  | none => exact absurd (List.getLast?_eq_none_iff.mp last) (pieces_ne_nil right)
  | some piece => rfl

/-- A line feed is a boundary: the lines on its two sides do not depend on each
other. -/
theorem lines_append (left right : Bytes) :
    lines (left ++ Octet.lineFeed :: right) = pieces left ++ lines right := by
  rw [lines, lines, rest_append, ended_append]
  split
  · rfl
  · rw [List.append_assoc]

end Split
end Microcode
