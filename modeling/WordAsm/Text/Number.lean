/-!
# Number formats

Digits and their values, hexadecimal with the sign counted in the width, and the limit on
decimal numbers: a decimal numeral of more than 4300 digits is neither read nor written.
-/

namespace WordAsm
namespace Text

/-- Whether a character is a hexadecimal digit. -/
def isHexDigit (c : Char) : Bool :=
  c.isDigit || ('a' ≤ c && c ≤ 'f') || ('A' ≤ c && c ≤ 'F')

/-- The value of a hexadecimal digit. -/
def digitValue (c : Char) : Nat :=
  if c.isDigit then c.toNat - '0'.toNat
  else if 'a' ≤ c then c.toNat - 'a'.toNat + 10
  else c.toNat - 'A'.toNat + 10

/-- The number that digits denote in a base, most significant digit first. -/
def valueOf
    (base : Nat)
    (digits : List Char) : Nat :=
  digits.foldl (fun value digit => value * base + digitValue digit) 0

/-- Upper-case hexadecimal, filled with zeros behind the sign up to a width. -/
def hexadecimal
    (width : Nat)
    (n : Int) : String :=
  let sign := if n < 0 then ['-'] else []
  let digits := (Nat.toDigits 16 n.natAbs).map Char.toUpper
  String.ofList (sign ++ digits.leftpad (width - sign.length) '0')

/-- Largest number of decimal digits that are read or written. -/
def decimalLimit : Nat :=
  4300

/-- Whether the decimal form of a number keeps within the limit. -/
def isWritable (n : Int) : Bool :=
  (Nat.toDigits 10 n.natAbs).length ≤ decimalLimit

/-- A text filled with spaces on its right up to a width; it is never cut. -/
def padRight
    (width : Nat)
    (text : String) : String :=
  String.ofList (text.toList.rightpad width ' ')

/-- A text filled with spaces on its left up to a width; it is never cut. -/
def padLeft
    (width : Nat)
    (text : String) : String :=
  String.ofList (text.toList.leftpad width ' ')

end Text
end WordAsm
