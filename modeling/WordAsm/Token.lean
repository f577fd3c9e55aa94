import WordAsm.Location
import WordAsm.Text.Number
import WordAsm.Text.Quoted

/-!
# Tokens

The units of assembly text that the later stages work on. A token has a content, which says
what kind of unit it is and holds its value, and the place at which it was found.

Tokens may also be made by hand, so a type word, a register or a character holds any text;
the stages that use the text check it.
-/

namespace WordAsm

/-- What a token stands for. -/
inductive Token.Content
  | marker (name : String)
  | label (name : String)
  | lineEnd
  | comma
  | mnemonic (name : String)
  | typeWord (name : String)
  | register (name : String)
  | symbol (name : String)
  | number (value : Int)
  | character (text : String)
  deriving DecidableEq

/-- A unit of source text with its place. -/
structure Token where
  content : Token.Content
  location : Location
  deriving DecidableEq

namespace Token
namespace Content

/-- The class of a content, as token dumps name it. -/
def tag : Content → String
  | .marker _ => "SECTION"
  | .label _ => "LABEL"
  | .lineEnd => "NEWLINE"
  | .comma => "COMMA"
  | .mnemonic _ => "OPCODE"
  | .typeWord _ => "TYPE"
  | .register _ => "REGISTER"
  | .symbol _ => "IDENTIFIER"
  | .number _ => "NUMBER"
  | .character _ => "CHAR"

/-- The value of a content as token dumps show it, where there is one. -/
def valueText : Content → Option String
  | .lineEnd | .comma => none
  | .marker text | .label text | .mnemonic text | .typeWord text | .register text | .symbol text
  | .character text => some (Text.quoted text)
  | .number value => some (toString value)

/-- A content in the words of a message. -/
def describe : Content → String
  | .lineEnd => "end of line"
  | .comma => "','"
  | .marker name => s!"section marker '.{name}'"
  | .label name => s!"label '{name}:'"
  | .mnemonic name => "opcode " ++ Text.quoted name
  | .typeWord name => "type " ++ Text.quoted name
  | .register name => "register " ++ Text.quoted name
  | .symbol name => "identifier " ++ Text.quoted name
  | .number value => s!"number {value}"
  | .character text => "char " ++ Text.quoted text

/-- Whether a content can be described: a number must keep within the decimal limit. -/
def isWritable : Content → Bool
  | .number value => Text.isWritable value
  | _ => true

/-- Whether a content is a section marker. -/
def isMarker : Content → Bool
  | .marker _ => true
  | _ => false

/-- The name a label declares. -/
def label? : Content → Option String
  | .label name => some name
  | _ => none

/-- Number of words that a content takes in the program: labels and punctuation take none, a
mnemonic and each operand take one. -/
def width : Content → Nat
  | .label _ | .comma | .lineEnd => 0
  | _ => 1

end Content

/-- A token as token dumps show it. -/
def text (token : Token) : String :=
  let line := token.location.line
  let column := token.location.column
  let tag := token.content.tag
  match token.content.valueText with
  | some value => s!"Token({tag}, {value}, {line}:{column})"
  | none => s!"Token({tag}, {line}:{column})"

end Token
end WordAsm
