import WordAsm.Lexeme.Basic

/-!
# Numerals

Unsigned numbers: decimal, or in a base that a zero and a letter announce. A numeral takes all
digits of its base that follow, needs at least one, and must not run into a name.
-/

namespace WordAsm
namespace Lexeme

/-- The bases of numerals. -/
inductive Radix
  | decimal
  | hexadecimal
  | binary
  | octal
  deriving DecidableEq

namespace Radix

/-- The base as a number. -/
def base : Radix → Nat
  | .decimal => 10
  | .hexadecimal => 16
  | .binary => 2
  | .octal => 8

/-- Whether a character is a digit of the base. -/
def hasDigit : Radix → Char → Bool
  | .decimal, c => c.isDigit
  | .hexadecimal, c => Text.isHexDigit c
  | .binary, c => c == '0' || c == '1'
  | .octal, c => '0' ≤ c && c ≤ '7'

/-- The base that a letter announces after a zero. -/
def ofLetter? (c : Char) : Option Radix :=
  if c == 'x' || c == 'X' then some .hexadecimal
  else if c == 'b' || c == 'B' then some .binary
  else if c == 'o' || c == 'O' then some .octal
  else none

/-- The base of the numeral that a text starts with, and the length of its announcement. -/
def ofText : List Char → Radix × Nat
  | '0' :: letter :: _ =>
      match ofLetter? letter with
      | some radix => (radix, 2)
      | none => (.decimal, 0)
  | _ => (.decimal, 0)

end Radix

/-- Read the numeral at the start of a text: its value and its length. -/
def scanNumeral (text : List Char) : Except Error (Nat × Nat) :=
  let (radix, announced) := Radix.ofText text
  let digits := (text.drop announced).takeWhile radix.hasDigit
  let length := announced + digits.length
  if digits.isEmpty then .error (.malformed .noDigits length)
  else
    match (text.drop length).head?.filter isNameCharacter with
    | some c => .error (.malformed (.invalidDigit c) length)
    | none =>
        if radix = .decimal ∧ Text.decimalLimit < digits.length then
          .error (.longNumeral digits.length)
        else .ok (Text.valueOf radix.base digits, length)

end Lexeme
end WordAsm
