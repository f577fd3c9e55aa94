import WordAsm.Constant.Basic
import WordAsm.Table
import WordAsm.Text.Number

/-!
# Symbol files

One symbol on a line: the constants in order of declaration, then the labels by address and,
at one address, by name. A line holds a name, the kind of the symbol and its value, and can be
read back if the name holds no space.
-/

namespace WordAsm
namespace SymbolFile

/-- The kinds of symbols. -/
inductive Kind
  | constant
  | label
  deriving DecidableEq

namespace Kind

/-- The word for a kind. -/
def word : Kind → String
  | .constant => "const"
  | .label => "label"

/-- The kind that a word stands for. -/
def ofWord? (word : String) : Option Kind :=
  if word = "const" then some .constant
  else if word = "label" then some .label
  else none

end Kind

/-- A symbol of a symbol file. -/
structure Symbol where
  name : String
  kind : Kind
  value : Int
  deriving DecidableEq

namespace Symbol

/-- The line of a symbol. -/
def line (symbol : Symbol) : String :=
  symbol.name ++ " " ++ symbol.kind.word ++ " $" ++ Text.hexadecimal 4 symbol.value

/-- The number that a hexadecimal numeral with an optional sign denotes. -/
def value? : List Char → Option Int
  | '-' :: digits =>
      if digits.all Text.isHexDigit && !digits.isEmpty then some (-(Text.valueOf 16 digits : Int))
      else none
  | digits =>
      if digits.all Text.isHexDigit && !digits.isEmpty then some (Text.valueOf 16 digits : Int)
      else none

/-- The symbol that a line holds. -/
def ofLine? (line : List Char) : Option Symbol :=
  match line.splitOn ' ' with
  | [name, kind, '$' :: digits] => do
      let kind ← Kind.ofWord? (String.ofList kind)
      let value ← value? digits
      some { name := String.ofList name, kind, value }
  | _ => none

end Symbol

/-- Whether a label goes before another: the lower address first, then the lower name. -/
def labelBefore
    (first second : String × Int) : Bool :=
  if first.2 = second.2 then first.1 ≤ second.1 else first.2 < second.2

/-- Labels by address and name. -/
def sortedLabels (labels : Table Int) : List (String × Int) :=
  labels.entries.mergeSort labelBefore

/-- The symbols of a program in the order of its symbol file. -/
def symbols
    (constants : List Constant)
    (labels : Table Int) : List Symbol :=
  constants.map (fun constant => ⟨constant.name, .constant, constant.value⟩) ++
    (sortedLabels labels).map fun (name, address) => ⟨name, .label, address⟩

/-- The lines that every symbol file starts with. -/
def heading : List String :=
  ["# Symbol table", "# Generated by vm16asm"]

/-- The text of a symbol file. -/
def text
    (constants : List Constant)
    (labels : Table Int) : String :=
  "\n".intercalate (heading ++ (symbols constants labels).map (·.line)) ++ "\n"

/-- The symbols that the text of a symbol file holds, behind its heading. -/
def read? (text : String) : Option (List Symbol) :=
  ((text.toList.splitOn '\n').drop heading.length).dropLast.mapM Symbol.ofLine?

end SymbolFile
end WordAsm
