import WordAsm.Location

/-!
# Diagnostics

A diagnostic is what a programmer sees of an error: its category, a message, and where they
are known the place, the source line and a hint. Categories form a small hierarchy.
-/

namespace WordAsm

/-- The categories of assembly errors. -/
inductive Category
  | assembler
  | lexical
  | layout
  | missingSection
  | sectionCount
  | malformedConstant
  | duplicateSymbol
  | duplicateConstant
  | duplicateLabel
  | ambiguousSymbol
  | missingEntryPoint
  | undeclaredSymbol
  | unknownOpcode
  | operand
  | notARegister
  | tooFewOperands
  | misplacedToken
  | outputRange
  deriving DecidableEq

namespace Category

/-- The short name of a category. -/
def name : Category → String
  | .assembler => "Assembler"
  | .lexical => "AssemblySyntax"
  | .layout => "Section"
  | .missingSection => "MissingSection"
  | .sectionCount => "UnsupportedSectionCount"
  | .malformedConstant => "MalformedConstant"
  | .duplicateSymbol => "DuplicateSymbol"
  | .duplicateConstant => "DuplicateConstant"
  | .duplicateLabel => "DuplicateLabel"
  | .ambiguousSymbol => "AmbiguousSymbol"
  | .missingEntryPoint => "MissingEntryPoint"
  | .undeclaredSymbol => "UndeclaredSymbol"
  | .unknownOpcode => "UnknownOpcode"
  | .operand => "Operand"
  | .notARegister => "NotARegister"
  | .tooFewOperands => "TooFewArguments"
  | .misplacedToken => "InvalidToken"
  | .outputRange => "OutputRange"

/-- The category that a category refines. -/
def parent? : Category → Option Category
  | .assembler => none
  | .missingSection | .sectionCount => some .layout
  | .duplicateConstant | .duplicateLabel => some .duplicateSymbol
  | .notARegister | .tooFewOperands | .misplacedToken => some .operand
  | _ => some .assembler

/-- The categories above a category, nearest first. No chain is longer than two. -/
def ancestors (category : Category) : List Category :=
  match category.parent? with
  | none => []
  | some parent =>
      match parent.parent? with
      | none => [parent]
      | some top => [parent, top]

end Category

/-- An error as it is shown. -/
structure Diagnostic where
  category : Category
  message : String
  location : Option Location := none
  hint : Option String := none
  sourceLine : Option String := none
  deriving DecidableEq

namespace Diagnostic

/-- The first line: the place, where it is known, and the message. -/
def headline (diagnostic : Diagnostic) : String :=
  let message := diagnostic.message
  match diagnostic.location with
  | some location => location.text ++ s!": error: {message}"
  | none => s!"error: {message}"

/-- The source line of the error, indented, and a caret under the column where it is known. A
source line without a place is not shown. -/
def excerpt (diagnostic : Diagnostic) : List String :=
  match diagnostic.sourceLine, diagnostic.location with
  | some line, some location =>
      if 0 < location.column then
        let indent := List.replicate (4 + location.column - 1).toNat ' '
        [s!"    {line}", String.ofList (indent ++ ['^'])]
      else [s!"    {line}"]
  | _, _ => []

/-- The hint line; an empty hint is not shown. -/
def hintLine (diagnostic : Diagnostic) : List String :=
  match diagnostic.hint with
  | some hint => if hint.isEmpty then [] else [s!"hint: {hint}"]
  | none => []

/-- The whole text of a diagnostic. -/
def text (diagnostic : Diagnostic) : String :=
  "\n".intercalate (diagnostic.headline :: diagnostic.excerpt ++ diagnostic.hintLine)

end Diagnostic
end WordAsm
