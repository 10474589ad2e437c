import Microcode.Proofs.Boundaries
import Microcode.Proofs.Placement
import Microcode.Proofs.Written
import Microcode.Rendering.Format

namespace Microcode

/-!
Renderings read back.

A rendering is read line by line, and a line is divided at its quotes or blanks.  No digit
is one of these marks, so the rows that are read are those that were written, one for each
word.
-/

/-- The text of an address and the text of the bits behind it. -/
structure Row where
  address : Bytes
  bits : Bytes
  deriving DecidableEq, Repr

namespace Octet

/-- The quote that encloses texts. -/
abbrev quote : UInt8 := 0x22

end Octet

namespace Rendering

/-! ## Reading -/

def vhdlRow? (line : Bytes) : Option Row :=
  match line.splitOn Octet.quote with
  | [front, bits, back] =>
      match front.splitOn Octet.hash with
      | [radix, address, arrow] =>
          if radix = Utf8.encode "16" ∧ arrow = Utf8.encode " => " ∧ back = Utf8.encode ",\r" then
            some ⟨address, bits⟩
          else none
      | _ => none
  | _ => none

def textRow? (line : Bytes) : Option Row :=
  match line.splitOn Octet.blank with
  | [address, bits] => some ⟨address, bits⟩
  | _ => none

/-- The value of a member of an object, on a line of its own. -/
def member? (name mark : String) (line : Bytes) : Option Bytes :=
  match line.splitOn Octet.quote with
  | [indent, found, colon, value, behind] =>
      if indent = Utf8.encode "    " ∧ found = Utf8.encode name ∧ colon = Utf8.encode ": " ∧
          behind = Utf8.encode mark then
        some value
      else none
  | _ => none

/-- The rows in the objects of an array, of which each takes four lines.  A comma follows
all but the last. -/
def jsonRows? : List Bytes → Option (List Row)
  | [last] => if last = Utf8.encode "]" then some [] else none
  | first :: second :: third :: fourth :: rest => do
      let address ← member? "address" "," second
      let bits ← member? "bits" "" third
      let rows ← jsonRows? rest
      let mark := if rows.isEmpty then "  \x7d" else "  \x7d,"
      if first = Utf8.encode "  \x7b" ∧ fourth = Utf8.encode mark then
        some (⟨address, bits⟩ :: rows)
      else none
  | _ => none

/-- The rows of a rendering. -/
def rows? (format : Format) (text : Bytes) : Option (List Row) :=
  match format with
  | .vhdl => (Split.lines text).mapM vhdlRow?
  | .text => (Split.lines text).mapM textRow?
  | .json =>
      match Split.lines text with
      | [] => none
      | first :: rest =>
          if first = Utf8.encode "[]" ∧ rest = [] then some []
          else if first = Utf8.encode "[" then jsonRows? rest
          else none

/-! ## Digits -/

/-- The letters in which addresses are written. -/
def letters : Format → Hex.LetterCase
  | .vhdl => .lower
  | .text => .upper
  | .json => .upper

/-- The row of a word. -/
def row (format : Format) (width : Width) (word : Word) : Row where
  address := Hex.address (letters format) word.address
  bits := bitText width word

theorem isDigit_address (letters : Hex.LetterCase) (address : BitVec addressBits) :
    ∀ octet ∈ Hex.address letters address, Hex.isDigit octet :=
  Hex.isDigit_digits letters (Layout.addressDigits_lt address)

theorem isDigit_bitText (width : Width) (word : Word) :
    ∀ octet ∈ bitText width word, Hex.isDigit octet := by
  have digits : ∀ octet ∈ word.fullText, Hex.isDigit octet := by
    intro octet member
    rcases Word.mem_fullText member with rfl | rfl <;> decide
  cases width with
  | full => exact digits
  | meaningful =>
      intro octet member
      apply digits
      rw [bitText, Word.meaningfulText_eq_take] at member
      exact List.mem_of_mem_take member

/-- Marks are not digits, so no text of digits holds one. -/
theorem not_mem_of_digits {mark : UInt8} (other : Hex.isDigit mark = false) {text : Bytes}
    (digits : ∀ octet ∈ text, Hex.isDigit octet) : mark ∉ text := by
  intro member
  have digit := digits mark member
  rw [other] at digit
  cases digit

theorem not_mem_intercalate {mark separator : UInt8} (different : mark ≠ separator)
    {texts : List Bytes} (clean : ∀ text ∈ texts, mark ∉ text) :
    mark ∉ [separator].intercalate texts := by
  induction texts with
  | nil => exact List.not_mem_nil
  | cons first texts ih =>
      have parts := List.forall_mem_cons.mp clean
      cases texts with
      | nil =>
          rw [List.intercalate_singleton]
          exact parts.1
      | cons second rest =>
          rw [List.intercalate_cons_cons, List.mem_append, List.mem_append, List.mem_singleton]
          rintro ((member | same) | member)
          · exact parts.1 member
          · exact different same
          · exact ih parts.2 member

/-! ## Lines of rows -/

section Lines

variable (width : Width) (word : Word)

/-- What stands around the hash signs of a row, up to its first quote. -/
def vhdlFront : List Bytes :=
  [Utf8.encode "16", Hex.address .lower word.address, Utf8.encode " => "]

/-- What stands around the quotes of a row. -/
def vhdlParts : List Bytes :=
  [[Octet.hash].intercalate (vhdlFront word), bitText width word, Utf8.encode ",\r"]

/-- What stands around the blank of a row. -/
def textParts : List Bytes :=
  [Hex.address .upper word.address, bitText width word]

/-- What stands around the quotes of a member of an object. -/
def memberParts (name : String) (value : Bytes) (behind : String) : List Bytes :=
  [Utf8.encode "    ", Utf8.encode name, Utf8.encode ": ", value, Utf8.encode behind]

theorem vhdlRow_eq :
    vhdlRow width word =
      [Octet.quote].intercalate (vhdlParts width word) ++ [Octet.lineFeed] := by
  have opening : Utf8.encode "16#" = Utf8.encode "16" ++ [Octet.hash] := by decide
  have middle : Utf8.encode "# => \"" = Octet.hash :: Utf8.encode " => " ++ [Octet.quote] := by
    decide
  have closing : Utf8.encode "\",\r\n" =
      Octet.quote :: Utf8.encode ",\r" ++ [Octet.lineFeed] := by
    decide
  rw [vhdlRow, opening, middle, closing]
  simp [vhdlParts, vhdlFront, List.intercalate]

theorem textRow_eq :
    textRow width word =
      [Octet.blank].intercalate (textParts width word) ++ [Octet.lineFeed] := by
  simp [textRow, textParts, List.intercalate]

section Marks

variable {mark : UInt8} (other : Hex.isDigit mark = false)

include other

theorem not_mem_vhdlFront (fixed : mark ∉ Utf8.encode "16" ∧ mark ∉ Utf8.encode " => ") :
    ∀ text ∈ vhdlFront word, mark ∉ text := by
  have address := not_mem_of_digits other (isDigit_address .lower word.address)
  simpa [vhdlFront] using ⟨fixed.1, address, fixed.2⟩

theorem not_mem_vhdlParts (different : mark ≠ Octet.hash)
    (fixed : mark ∉ Utf8.encode "16" ∧ mark ∉ Utf8.encode " => ")
    (closing : mark ∉ Utf8.encode ",\r") :
    ∀ text ∈ vhdlParts width word, mark ∉ text := by
  have front := not_mem_intercalate different (not_mem_vhdlFront word other fixed)
  have bits := not_mem_of_digits other (isDigit_bitText width word)
  simpa [vhdlParts] using ⟨front, bits, closing⟩

theorem not_mem_textParts : ∀ text ∈ textParts width word, mark ∉ text := by
  have address := not_mem_of_digits other (isDigit_address .upper word.address)
  have bits := not_mem_of_digits other (isDigit_bitText width word)
  simpa [textParts] using ⟨address, bits⟩

theorem not_mem_memberParts (name behind : String) {value : Bytes}
    (digits : ∀ octet ∈ value, Hex.isDigit octet)
    (fixed : mark ∉ Utf8.encode "    " ∧ mark ∉ Utf8.encode name ∧ mark ∉ Utf8.encode ": " ∧
      mark ∉ Utf8.encode behind) :
    ∀ text ∈ memberParts name value behind, mark ∉ text := by
  have clean := not_mem_of_digits other digits
  simpa [memberParts] using ⟨fixed.1, fixed.2.1, fixed.2.2.1, clean, fixed.2.2.2⟩

end Marks

/-- The lines of an object.  The last object of an array has no comma behind it. -/
def objectLines (last : Bool) : List Bytes :=
  [Utf8.encode "  \x7b",
    [Octet.quote].intercalate
      (memberParts "address" (Hex.address .upper word.address) ","),
    [Octet.quote].intercalate (memberParts "bits" (bitText width word) ""),
    Utf8.encode (if last then "  \x7d" else "  \x7d,")]

/-- The lines of an array but the first. -/
def arrayLines : List Word → List Bytes
  | [] => [Utf8.encode "]"]
  | word :: rest => objectLines width word rest.isEmpty ++ arrayLines rest

/-- The end of a row and what stands between it and the next row. -/
theorem jsonRow_append (last : Bool) :
    jsonRow width word ++ Utf8.encode (if last then "" else ",") ++ [Octet.lineFeed] =
      (objectLines width word last).flatMap (· ++ [Octet.lineFeed]) := by
  have opening : Utf8.encode "  \x7b\n    \"address\": \"" =
      Utf8.encode "  \x7b" ++ Octet.lineFeed :: Utf8.encode "    " ++
        Octet.quote :: Utf8.encode "address" ++ Octet.quote :: Utf8.encode ": " ++
        [Octet.quote] := by
    decide
  have middle : Utf8.encode "\",\n    \"bits\": \"" =
      Octet.quote :: Utf8.encode "," ++ Octet.lineFeed :: Utf8.encode "    " ++
        Octet.quote :: Utf8.encode "bits" ++ Octet.quote :: Utf8.encode ": " ++
        [Octet.quote] := by
    decide
  have closing : Utf8.encode "\"\n  \x7d" ++ Utf8.encode (if last then "" else ",") =
      Octet.quote :: Utf8.encode "" ++ Octet.lineFeed ::
        Utf8.encode (if last then "  \x7d" else "  \x7d,") := by
    cases last <;> decide
  rw [jsonRow, opening, middle, List.append_assoc _ _ (Utf8.encode (if last then "" else ",")), closing]
  simp [objectLines, memberParts, List.intercalate]

end Lines

/-! ## Renderings as lines -/

section Renderings

variable (width : Width)

theorem render_vhdl (words : List Word) :
    render .vhdl width words =
      (words.map fun word => [Octet.quote].intercalate (vhdlParts width word)).flatMap
        (· ++ [Octet.lineFeed]) := by
  rw [List.flatMap_map, render, pieces, ← List.flatMap_def, funext (vhdlRow_eq width)]

theorem render_text (words : List Word) :
    render .text width words =
      (words.map fun word => [Octet.blank].intercalate (textParts width word)).flatMap
        (· ++ [Octet.lineFeed]) := by
  rw [List.flatMap_map, render, pieces, ← List.flatMap_def, funext (textRow_eq width)]

theorem arrayLines_flatMap (first : Word) (rest : List Word) :
    jsonRow width first ++
        (rest.map fun word => Utf8.encode ",\n" ++ jsonRow width word).flatten ++
        (Utf8.encode "\n]" ++ [Octet.lineFeed]) =
      (arrayLines width (first :: rest)).flatMap (· ++ [Octet.lineFeed]) := by
  have last : Utf8.encode "\n]" = Octet.lineFeed :: Utf8.encode "]" := by decide
  have comma : Utf8.encode ",\n" = Utf8.encode "," ++ [Octet.lineFeed] := by decide
  induction rest generalizing first with
  | nil =>
      have object := jsonRow_append width first true
      rw [arrayLines, List.flatMap_append, List.isEmpty_nil, ← object, last]
      simp [arrayLines, show Utf8.encode "" = [] from rfl]
  | cons second rest ih =>
      have object := jsonRow_append width first false
      rw [arrayLines, List.flatMap_append, List.isEmpty_cons, ← object, ← ih second, comma]
      simp

theorem render_json_cons (first : Word) (rest : List Word) :
    render .json width (first :: rest) =
      (Utf8.encode "[" :: arrayLines width (first :: rest)).flatMap (· ++ [Octet.lineFeed]) := by
  have opening : Utf8.encode "[\n" = Utf8.encode "[" ++ [Octet.lineFeed] := by decide
  rw [List.flatMap_cons, ← arrayLines_flatMap, render, pieces, jsonPieces, opening]
  simp

theorem lineFeed_not_mem_objectLines (word : Word) (last : Bool) :
    ∀ line ∈ objectLines width word last, Octet.lineFeed ∉ line := by
  have lineFeed : Hex.isDigit Octet.lineFeed = false := rfl
  have address := not_mem_memberParts lineFeed "address" ","
    (isDigit_address .upper word.address) (by decide)
  have bits := not_mem_memberParts lineFeed "bits" "" (isDigit_bitText width word) (by decide)
  have different : Octet.lineFeed ≠ Octet.quote := by decide
  have opening : Octet.lineFeed ∉ Utf8.encode "  \x7b" := by decide
  have closing : Octet.lineFeed ∉ Utf8.encode (if last then "  \x7d" else "  \x7d,") := by
    cases last <;> decide
  simpa [objectLines] using ⟨opening, not_mem_intercalate different address,
    not_mem_intercalate different bits, closing⟩

theorem lineFeed_not_mem_arrayLines (words : List Word) :
    ∀ line ∈ arrayLines width words, Octet.lineFeed ∉ line := by
  induction words with
  | nil => exact List.forall_mem_singleton.mpr (by decide)
  | cons word rest ih =>
      intro line member
      rcases List.mem_append.mp member with object | later
      · exact lineFeed_not_mem_objectLines width word _ line object
      · exact ih line later

/-! ## Rows read back -/

theorem vhdlRow?_parts (word : Word) :
    vhdlRow? ([Octet.quote].intercalate (vhdlParts width word)) =
      some (row .vhdl width word) := by
  have quote : Hex.isDigit Octet.quote = false := rfl
  have hash : Hex.isDigit Octet.hash = false := rfl
  have clean := not_mem_vhdlParts width word quote (by decide) (by decide) (by decide)
  have front := not_mem_vhdlFront word hash (by decide)
  rw [vhdlRow?, List.splitOn_intercalate _ clean (List.cons_ne_nil _ _)]
  dsimp only [vhdlParts]
  rw [List.splitOn_intercalate _ front (List.cons_ne_nil _ _)]
  exact if_pos ⟨rfl, rfl, rfl⟩

theorem textRow?_parts (word : Word) :
    textRow? ([Octet.blank].intercalate (textParts width word)) =
      some (row .text width word) := by
  have blank : Hex.isDigit Octet.blank = false := rfl
  have clean := not_mem_textParts width word blank
  rw [textRow?, List.splitOn_intercalate _ clean (List.cons_ne_nil _ _)]
  rfl

theorem member?_parts (name behind : String) {value : Bytes}
    (digits : ∀ octet ∈ value, Hex.isDigit octet)
    (fixed : Octet.quote ∉ Utf8.encode "    " ∧ Octet.quote ∉ Utf8.encode name ∧
      Octet.quote ∉ Utf8.encode ": " ∧ Octet.quote ∉ Utf8.encode behind) :
    member? name behind ([Octet.quote].intercalate (memberParts name value behind)) =
      some value := by
  have clean := not_mem_memberParts rfl name behind digits fixed
  rw [member?, List.splitOn_intercalate _ clean (List.cons_ne_nil _ _)]
  exact if_pos ⟨rfl, rfl, rfl, rfl⟩

theorem jsonRows?_arrayLines (words : List Word) :
    jsonRows? (arrayLines width words) = some (words.map (row .json width)) := by
  induction words with
  | nil => rfl
  | cons word rest ih =>
      have address := member?_parts "address" "," (isDigit_address .upper word.address) (by decide)
      have bits := member?_parts "bits" "" (isDigit_bitText width word) (by decide)
      have empty : (rest.map (row .json width)).isEmpty = rest.isEmpty := List.isEmpty_map
      simp only [arrayLines, objectLines, List.cons_append, List.nil_append, jsonRows?, address,
        bits, ih, Option.bind_eq_bind, Option.bind_some, empty]
      exact if_pos ⟨trivial, trivial⟩

/-- A format with one line for each word is read line by line. -/
theorem mapM_lines {line : Word → Bytes} {row? : Bytes → Option Row} {row : Word → Row}
    (unbroken : ∀ word, Octet.lineFeed ∉ line word)
    (read : ∀ word, row? (line word) = some (row word)) (words : List Word) :
    (Split.lines ((words.map line).flatMap (· ++ [Octet.lineFeed]))).mapM row? =
      some (words.map row) := by
  have each : ∀ text ∈ words.map line, Octet.lineFeed ∉ text := by
    intro text member
    rcases List.mem_map.mp member with ⟨word, -, rfl⟩
    exact unbroken word
  have rows : row? ∘ line = fun word => some (row word) := funext read
  rw [Split.lines_flatMap each, List.mapM_map, rows]
  exact List.mapM_pure

/-- What was written is read back, one row for each word. -/
theorem rows?_render (format : Format) (words : List Word) :
    rows? format (render format width words) = some (words.map (row format width)) := by
  cases format with
  | vhdl =>
      rw [rows?, render_vhdl]
      apply mapM_lines _ (vhdlRow?_parts width)
      intro word
      exact not_mem_intercalate (by decide)
        (not_mem_vhdlParts width word rfl (by decide) (by decide) (by decide))
  | text =>
      rw [rows?, render_text]
      apply mapM_lines _ (textRow?_parts width)
      intro word
      exact not_mem_intercalate (by decide) (not_mem_textParts width word rfl)
  | json =>
      cases words with
      | nil => rfl
      | cons first rest =>
          have unbroken : ∀ line ∈ Utf8.encode "[" :: arrayLines width (first :: rest),
              Octet.lineFeed ∉ line :=
            List.forall_mem_cons.mpr ⟨by decide, lineFeed_not_mem_arrayLines width _⟩
          have different : Utf8.encode "[" ≠ Utf8.encode "[]" := by decide
          rw [rows?, render_json_cons, Split.lines_flatMap unbroken]
          dsimp only
          rw [if_neg (fun both => different both.1), if_pos rfl, jsonRows?_arrayLines]

end Renderings

end Rendering

end Microcode
