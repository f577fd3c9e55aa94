import WordAsm.Token

/-!
# Rendering tokens

A canonical text for token contents: numbers in hexadecimal, characters between quotes with
escapes where they are needed, and a space behind everything but the end of a line.
-/

namespace WordAsm
namespace Token
namespace Content

/-- A number in hexadecimal, with a minus sign if it is negative. -/
def spellNumber (value : Int) : List Char :=
  let digits := '0' :: 'x' :: Nat.toDigits 16 value.natAbs
  if value < 0 then '-' :: digits else digits

/-- A character between quotes. Line feeds, quotes and backslashes are escaped. -/
def spellCharacter (c : Char) : List Char :=
  if c = '\n' then ['\'', '\\', 'n', '\'']
  else if c = '\'' ∨ c = '\\' then ['\'', '\\', c, '\'']
  else ['\'', c, '\'']

/-- The canonical spelling of a content. -/
def spelling : Content → List Char
  | .marker name => '.' :: name.toList
  | .label name => name.toList ++ [':']
  | .lineEnd => ['\n']
  | .comma => [',']
  | .mnemonic name | .typeWord name | .register name | .symbol name => name.toList
  | .number value => spellNumber value
  | .character text => text.toList.flatMap spellCharacter

/-- The canonical spelling of a content with what separates it from the next one. -/
def render : Content → List Char
  | .lineEnd => spelling .lineEnd
  | content => content.spelling ++ [' ']

end Content

/-- The canonical text of a sequence of contents. -/
def render (contents : List Content) : String :=
  String.ofList (contents.flatMap Content.render)

end Token
end WordAsm
