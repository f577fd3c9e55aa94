import WordAsm.Failure

/-!
# Lexemes

The smallest pieces of source text: what can be told from the characters alone, before the
line and the section in which they stand are considered.
-/

namespace WordAsm

/-- A smallest piece of source text. -/
inductive Lexeme
  | blank
  | comment
  | lineBreak
  | comma
  | marker (name : String)
  | label (name : String)
  | word (name : String)
  | number (value : Int)
  | character (value : Char)
  deriving DecidableEq

namespace Lexeme

/-- Why no lexeme could be read. A malformed lexeme is reported after `offset` of its
characters. -/
inductive Error
  | malformed (cause : Cause) (offset : Nat)
  | longNumeral (digits : Nat)
  deriving DecidableEq

/-- Whether a character only separates lexemes on a line. -/
def isBlank (c : Char) : Bool :=
  c == ' ' || c == '\t' || c == '\r'

/-- Whether a name may start with a character. -/
def isNameStart (c : Char) : Bool :=
  c.isAlpha || c == '_'

/-- Whether a name may go on with a character. -/
def isNameCharacter (c : Char) : Bool :=
  c.isAlphanum || c == '_'

end Lexeme
end WordAsm
