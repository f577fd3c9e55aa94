import WordAsm.Text.CodePoints

/-!
# Blank characters

The characters that count as white space at the ends of a text, and texts without them.
-/

namespace WordAsm
namespace Text

/-- Code points of the blank characters. -/
def blanks : CodePoints := [
    (0x09, 0x0d), (0x1c, 0x20), (0x85, 0x85), (0xa0, 0xa0), (0x1680, 0x1680),
    (0x2000, 0x200a), (0x2028, 0x2029), (0x202f, 0x202f), (0x205f, 0x205f), (0x3000, 0x3000)]

/-- Whether a character is blank. -/
def isBlank (c : Char) : Bool :=
  blanks.has c

/-- A text without the blanks at both of its ends. -/
def strip (text : String) : String :=
  String.ofList ((text.toList.dropWhile isBlank).reverse.dropWhile isBlank).reverse

end Text
end WordAsm
