import WordAsm.Encoding
import WordAsm.Text.Blank

/-!
# Listings

One instruction on a row: its address and words, and the source line it came from. The labels
follow in alphabetical order.
-/

namespace WordAsm
namespace Listing

/-- The lines that every listing starts with. -/
def heading : List String := [
    "VM16 Assembler Listing",
    String.ofList (List.replicate 60 '='),
    "",
    "Addr  Code                 Line  Source",
    String.ofList (List.replicate 60 '-')]

/-- The source text of an entry: its line without blanks at the ends, or the mnemonic where
the line is unknown. -/
def sourceText
    (lines : Array String)
    (entry : Entry) : String :=
  if 0 < entry.line then
    match lines[(entry.line - 1).toNat]? with
    | some line => Text.strip line
    | none => entry.mnemonic
  else entry.mnemonic

/-- The row of an entry. -/
def row
    (lines : Array String)
    (entry : Entry) : String :=
  let words := " ".intercalate (entry.words.map (Text.hexadecimal 4))
  Text.hexadecimal 4 entry.address ++ "  " ++ Text.padRight 20 words ++ " " ++
    Text.padLeft 4 (toString entry.line) ++ "  " ++ sourceText lines entry

/-- The row of a label. -/
def labelRow (label : String × Int) : String :=
  Text.padRight 20 label.1 ++ " = $" ++ Text.hexadecimal 4 label.2

/-- Labels in alphabetical order. -/
def sortedLabels (labels : Table Int) : List (String × Int) :=
  labels.entries.mergeSort fun first second => first.1 ≤ second.1

/-- The text of a listing. Without source lines every row shows its mnemonic. -/
def text
    (entries : List Entry)
    (labels : Table Int)
    (sourceLines : List String) : String :=
  let lines := sourceLines.toArray
  let labelHeading := ["", "Labels", String.ofList (List.replicate 30 '-')]
  "\n".intercalate
    (heading ++ entries.map (row lines) ++ labelHeading ++ (sortedLabels labels).map labelRow) ++
    "\n"

end Listing
end WordAsm
