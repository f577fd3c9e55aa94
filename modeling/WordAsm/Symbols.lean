import WordAsm.Failure
import WordAsm.Table
import WordAsm.Text.CloseMatch

/-!
# Symbols

The names that a program declares: labels of the code section and constants of the data
section. Labels are declared once, share no name with a constant, and include the entry point.
-/

namespace WordAsm

/-- The labels and constants of a program. -/
structure Symbols where
  labels : List String
  constants : Table Constant
  deriving DecidableEq

/-- Constants under their names. -/
def Constant.table (constants : List Constant) : Table Constant :=
  .ofList (constants.map fun constant => (constant.name, constant))

namespace Symbols

/-- Whether a name is a label. -/
def isLabel
    (symbols : Symbols)
    (name : String) : Bool :=
  symbols.labels.contains name

/-- Whether a name is a constant. -/
def isConstant
    (symbols : Symbols)
    (name : String) : Bool :=
  symbols.constants.contains name

/-- Declared names that are close to a name. -/
def similar
    (symbols : Symbols)
    (name : String) : List String :=
  Text.closeMatches name (symbols.constants.names ++ symbols.labels)

/-- Collect the label declarations of the remaining tokens after those before them. -/
def declarations
    (before : Table Location) : List Token → Except Failure (Table Location)
  | [] => .ok before
  | token :: rest =>
      match token.content with
      | .label name =>
          match before.get? name with
          | some first =>
              .error (.located token.location (.duplicateLabel name (some first)))
          | none => declarations (before.insert name token.location) rest
      | _ => declarations before rest

/-- The first declared label that is also a constant. -/
def firstAmbiguous
    (labels : Table Location)
    (constants : Table Constant) : Option (String × Location × Constant) :=
  labels.entries.findSome? fun (name, location) =>
    (constants.get? name).map fun constant => (name, location, constant)

/-- Collect the labels of a code section and check the names of the program. -/
def validate
    (code : List Token)
    (constants : List Constant)
    (entryPoint : String := "main") : Except Failure Symbols := do
  let labels ← declarations {} code
  let table := Constant.table constants
  match firstAmbiguous labels table with
  | some (name, location, constant) =>
      .error (.located location (.ambiguousSymbol name (some constant.location)))
  | none =>
      if labels.contains entryPoint then .ok ⟨labels.names, table⟩
      else .error (.overall (.missingEntryPoint entryPoint))

end Symbols
end WordAsm
