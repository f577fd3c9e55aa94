import WordAsm.Image
import WordAsm.Listing
import WordAsm.Operand
import WordAsm.Section
import WordAsm.SymbolFile
import WordAsm.Text.Lines
import WordAsm.Token.Reading

/-!
# Assembling a program

The whole way from tokens or source text to words. Each stage works on the complete result of
the stage before, and the first failure ends the assembly.
-/

namespace WordAsm

/-- What an assembly is asked for: the label where execution starts, and the number of zero
words behind the last instruction. -/
structure Settings where
  entryPoint : String := "main"
  terminatorWords : Int := 2
  deriving DecidableEq

/-- What an assembly yields. The source lines are known when it started from text. -/
structure Assembly where
  words : List Int := []
  constants : List Constant := []
  labels : Table Int := {}
  entries : List Entry := []
  sourceLines : List String := []
  deriving DecidableEq

namespace Assembly

/-- The zero words behind the last instruction; a negative number of them is none. -/
def terminator (settings : Settings) : List Int :=
  List.replicate settings.terminatorWords.toNat 0

/-- Assemble the tokens of a program. -/
def ofTokens
    (settings : Settings)
    (tokens : List Token) : Except Failure Assembly := do
  let layout ← Layout.ofTokens tokens
  let constants ← Constant.compile layout.data.tokens
  let symbols ← Symbols.validate layout.code.tokens constants settings.entryPoint
  let resolved ← Token.resolveAll symbols layout.code.tokens
  let code ← Code.generate resolved
  .ok {
    words := code.words ++ terminator settings
    constants
    labels := code.labels
    entries := code.entries }

/-- Note the source that an assembly started from. -/
def withSource
    (assembly : Assembly)
    (source : String) : Assembly :=
  { assembly with sourceLines := Text.lines source }

/-- Assemble a source text. -/
def ofSource
    (settings : Settings)
    (source : String)
    (file : String := "<input>") : Except Failure Assembly := do
  let tokens ← Token.ofSource source file
  let assembly ← ofTokens settings tokens
  .ok (assembly.withSource source)

/-- The program as bytes. -/
def image (assembly : Assembly) : Except Failure (List UInt8) :=
  Image.pack assembly.words

/-- The values of the constants by name. -/
def constantValues (assembly : Assembly) : Table Int :=
  .ofList (assembly.constants.map fun constant => (constant.name, constant.value))

/-- The values of constants and labels by name. -/
def symbols (assembly : Assembly) : Table Int :=
  assembly.constantValues.union assembly.labels

/-- The listing of the program. -/
def listing (assembly : Assembly) : String :=
  Listing.text assembly.entries assembly.labels assembly.sourceLines

/-- The symbol file of the program. -/
def symbolFile (assembly : Assembly) : String :=
  SymbolFile.text assembly.constants assembly.labels

/-- The word at a position; negative positions count from the end. -/
def word?
    (assembly : Assembly)
    (position : Int) : Option Int :=
  if 0 ≤ position then assembly.words[position.toNat]?
  else
    let fromStart := assembly.words.length + position
    if 0 ≤ fromStart then assembly.words[fromStart.toNat]? else none

end Assembly
end WordAsm
