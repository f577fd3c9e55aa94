import WordAsm.Location

/-!
# Constants

Named values of the data section. A declaration is a name, a type word, a literal and the end
of the line; the type word decides which literal may follow.
-/

namespace WordAsm

/-- A named value with the place of its declaration. -/
structure Constant where
  name : String
  value : Int
  line : Int := 0
  file : String := "<input>"
  deriving DecidableEq

/-- Where a constant is declared; the column is not kept. -/
def Constant.location (constant : Constant) : Location :=
  { file := constant.file, line := constant.line }

/-- The types of constants. -/
inductive ConstantType
  | number
  | character
  deriving DecidableEq

namespace ConstantType

/-- The word that declares a type. -/
def word : ConstantType → String
  | .number => "NUM"
  | .character => "CHR"

/-- The type that a word declares. -/
def ofWord? (word : String) : Option ConstantType :=
  if word = "NUM" then some .number
  else if word = "CHR" then some .character
  else none

end ConstantType

/-- The parts of a declaration, in order. -/
inductive DeclarationPart
  | name
  | typeWord
  | literal (type : ConstantType)
  | lineEnd
  deriving DecidableEq

namespace DeclarationPart

/-- A part as named where the section ends before it. -/
def text : DeclarationPart → String
  | .name => "constant name"
  | .typeWord => "constant type"
  | .literal _ => "literal"
  | .lineEnd => "end of line"

/-- A part as named where something else stands in its place. -/
def demand : DeclarationPart → String
  | .name => "constant name"
  | .typeWord => "constant type (NUM or CHR)"
  | .literal .number => "number literal"
  | .literal .character => "char literal"
  | .lineEnd => "end of line"

end DeclarationPart
end WordAsm
