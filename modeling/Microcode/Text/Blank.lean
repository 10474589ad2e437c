namespace Microcode
namespace Blank

/-!
Blank characters, and texts without them at their ends.
-/

/-- The code points with the Unicode property White_Space, as inclusive ranges. -/
def ranges : List (Nat × Nat) :=
  [(0x0009, 0x000D), (0x0020, 0x0020), (0x0085, 0x0085), (0x00A0, 0x00A0), (0x1680, 0x1680),
    (0x2000, 0x200A), (0x2028, 0x2029), (0x202F, 0x202F), (0x205F, 0x205F), (0x3000, 0x3000)]

def isBlank (char : Char) : Bool :=
  ranges.any fun (low, high) => low ≤ char.toNat && char.toNat ≤ high

/-- Drop the longest run of unwanted characters at the end. -/
def dropTrailing (unwanted : Char → Bool) (text : String) : String :=
  String.ofList (text.toList.reverse.dropWhile unwanted).reverse

def trimEnd (text : String) : String :=
  dropTrailing isBlank text

def trim (text : String) : String :=
  String.ofList ((trimEnd text).toList.dropWhile isBlank)

end Blank
end Microcode
