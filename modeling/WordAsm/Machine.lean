/-!
# The machine

Words have sixteen bits. Literal values fill the lower half of the words, and the eight
registers are addressed by the first eight words of the upper half.
-/

namespace WordAsm
namespace Machine

/-- Number of literal values. -/
def valueSpace : Nat :=
  32768

/-- Address of the first register. -/
def registerBase : Nat :=
  32768

/-- Number of registers. -/
def registerCount : Nat :=
  8

/-- Largest word. -/
def maxWord : Nat :=
  65535

/-- Reduce a number into the value space; negative numbers wrap around. -/
def literal (n : Int) : Int :=
  n % valueSpace

/-- Whether a number addresses a register. -/
def isRegisterAddress (n : Int) : Bool :=
  registerBase ≤ n && n < registerBase + registerCount

/-- Position of a register letter, from `a` to `h` in either case, among the registers. -/
def registerIndex? (letter : Char) : Option Nat :=
  ['a', 'b', 'c', 'd', 'e', 'f', 'g', 'h'].idxOf? letter.toLower

/-- The address of a register by its name, which is a single register letter. -/
def registerAddress? (name : String) : Option Int :=
  match name.toList with
  | [letter] => (registerIndex? letter).map fun index => (registerBase + index : Nat)
  | _ => none

/-- Whether a name is a register's. -/
def isRegisterName (name : String) : Bool :=
  (registerAddress? name).isSome

end Machine
end WordAsm
