import Microcode.Numeral.Hex
import Microcode.Text.Utf8
import Microcode.Word.Basic

namespace Microcode

/-!
Control words as text.

A rendering is a list of pieces, in the order in which they are written.
-/

inductive Format where
  /-- Rows of an array aggregate in a hardware description. -/
  | vhdl
  /-- An address and the bits on each line. -/
  | text
  /-- An array of objects. -/
  | json
  deriving DecidableEq, Repr

def Format.ofName? : String → Option Format
  | "vhdl" => some vhdl
  | "text" => some text
  | "json" => some json
  | _ => none

/-- How many bits of each word are written. -/
inductive Width where
  | meaningful
  /-- The end mark as well. -/
  | full
  deriving DecidableEq, Repr

namespace Rendering

def bitText (width : Width) (word : Word) : Bytes :=
  match width with
  | .meaningful => word.meaningfulText
  | .full => word.fullText

def vhdlRow (width : Width) (word : Word) : Bytes :=
  Utf8.encode "16#" ++ Hex.address .lower word.address ++ Utf8.encode "# => \""
    ++ bitText width word ++ Utf8.encode "\",\r\n"

def textRow (width : Width) (word : Word) : Bytes :=
  Hex.address .upper word.address ++ [Octet.blank] ++ bitText width word ++ [Octet.lineFeed]

def jsonRow (width : Width) (word : Word) : Bytes :=
  Utf8.encode "  \x7b\n    \"address\": \"" ++ Hex.address .upper word.address
    ++ Utf8.encode "\",\n    \"bits\": \"" ++ bitText width word ++ Utf8.encode "\"\n  \x7d"

def jsonPieces (width : Width) : List Word → List Bytes
  | [] => [Utf8.encode "[]", [Octet.lineFeed]]
  | first :: rest =>
      (Utf8.encode "[\n" ++ jsonRow width first)
        :: rest.map (fun word => Utf8.encode ",\n" ++ jsonRow width word)
        ++ [Utf8.encode "\n]", [Octet.lineFeed]]

def pieces (format : Format) (width : Width) (words : List Word) : List Bytes :=
  match format with
  | .vhdl => words.map (vhdlRow width)
  | .text => words.map (textRow width)
  | .json => jsonPieces width words

def render (format : Format) (width : Width) (words : List Word) : Bytes :=
  (pieces format width words).flatten

end Rendering

end Microcode
