import WordAsm.Text.Printable

/-!
# Quoted text

The form in which messages show a text: between quotes, on one line, with every character
that could not be told apart on paper written as an escape.
-/

namespace WordAsm
namespace Text
namespace Quoted

/-- Texts stand between single quotes, unless they hold one and no double quote. -/
def mark (text : List Char) : Char :=
  if text.contains '\'' && !text.contains '"' then '"' else '\''

/-- The digits of a code point in lower-case hexadecimal, filled up to a width. -/
def hexDigits
    (width : Nat)
    (point : Nat) : List Char :=
  (Nat.toDigits 16 point).leftpad width '0'

/-- A character without a printed form, by its code point in two, four or eight digits. -/
def escapePoint (point : Nat) : List Char :=
  if point ≤ 0xff then '\\' :: 'x' :: hexDigits 2 point
  else if point ≤ 0xffff then '\\' :: 'u' :: hexDigits 4 point
  else '\\' :: 'U' :: hexDigits 8 point

/-- The form of one character inside a text that stands between the given quotes. -/
def escape
    (quote : Char)
    (c : Char) : List Char :=
  if c == quote || c == '\\' then ['\\', c]
  else if c == '\n' then ['\\', 'n']
  else if c == '\r' then ['\\', 'r']
  else if c == '\t' then ['\\', 't']
  else if isPrintable c then [c]
  else escapePoint c.toNat

end Quoted

/-- The quoted form of a text. -/
def quoted (text : String) : String :=
  let quote := Quoted.mark text.toList
  String.ofList (quote :: text.toList.flatMap (Quoted.escape quote) ++ [quote])

end Text
end WordAsm
