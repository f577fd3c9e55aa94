/-!
# Lines of a text

Two readings of line ends. Splitting for display honours every separator that ends a line on
paper, and a carriage return with its line feed is one of them. Text files are read with the
three customary line ends made one.
-/

namespace WordAsm
namespace Text

/-- Whether a character ends a line on paper. -/
def isLineEnd (c : Char) : Bool :=
  c == '\n' || c == '\r' || c == '\x0b' || c == '\x0c' || c == '\x1c' || c == '\x1d' ||
    c == '\x1e' || c == '\u0085' || c == '\u2028' || c == '\u2029'

/-- Split the rest of a text, given the finished lines and the current one in reverse. -/
def linesFrom
    (finished : Array String)
    (current : List Char) : List Char → List String
  | [] =>
      if current.isEmpty then finished.toList
      else (finished.push (String.ofList current.reverse)).toList
  | '\r' :: '\n' :: rest => linesFrom (finished.push (String.ofList current.reverse)) [] rest
  | c :: rest =>
      if isLineEnd c then linesFrom (finished.push (String.ofList current.reverse)) [] rest
      else linesFrom finished (c :: current) rest

/-- The lines of a text without their ends; an end at the very end opens no further line. -/
def lines (text : String) : List String :=
  linesFrom #[] [] text.toList

/-- Make the line ends of the rest of a text one, given what stands before it in reverse. -/
def unifyFrom (before : List Char) : List Char → List Char
  | [] => before.reverse
  | '\r' :: '\n' :: rest => unifyFrom ('\n' :: before) rest
  | '\r' :: rest => unifyFrom ('\n' :: before) rest
  | c :: rest => unifyFrom (c :: before) rest

/-- A text in which every carriage return, alone or before a line feed, is a line feed. -/
def unifyLineEnds (text : List Char) : List Char :=
  unifyFrom [] text

end Text
end WordAsm
