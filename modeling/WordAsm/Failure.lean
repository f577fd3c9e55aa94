import WordAsm.Constant.Basic
import WordAsm.Diagnostic
import WordAsm.Text.Utf8
import WordAsm.Token

/-!
# Causes of failure

Why an assembly stops. A fault pairs a cause with the place it was found at; its category,
message and hint are read off the cause. Next to faults of the program text stand failures of
another nature: a number beyond the decimal limit, a hand-made token whose text has the wrong
form, and files that cannot be read or written.

The decimal limit is applied to the numbers of a message only. The lines and columns of places,
of the fault itself and in its hint, are taken to be within it. Places in a source are, since they
count its characters, and no source has 10^4300 of them. Only a first line of such a number, or a
token made by hand on such a line, has a place beyond the limit, and what its report would be is
not described here.
-/

namespace WordAsm

/-- What is wrong with a program. -/
inductive Cause
  | unexpectedCharacter (c : Char)
  | noDigitsAfterMinus
  | noSectionName
  | noDigits
  | invalidDigit (c : Char)
  | openCharacter
  | noClosingQuote
  | openEscape
  | noHexDigits
  | registerLabel (name : String)
  | outsideSection (found : Token.Content)
  | missingSection (name : String)
  | sectionCount (count : Int) (names : List String)
  | dataEnds (expected : DeclarationPart)
  | badDeclaration (expected : DeclarationPart) (found : Token.Content)
  | wrongLiteral (type : ConstantType) (name : String) (found : Token.Content)
  | constantRange (name : String) (codePoint : Nat)
  | duplicateSymbol (name : String) (first : Option Location)
  | duplicateConstant (name : String) (first : Option Location)
  | duplicateLabel (name : String) (first : Option Location)
  | ambiguousSymbol (name : String) (constant : Option Location)
  | missingEntryPoint (name : String)
  | undeclaredSymbol (name : String) (similar : List String)
  | characterRange (codePoint : Nat)
  | unknownOpcode (name : String) (similar : List String)
  | noInstruction (found : Token.Content)
  | noOperand (mnemonic : String) (found : Token.Content)
  | noSeparator (mnemonic : String) (operandsLeft : Bool) (found : Token.Content)
  | tooManyOperands (mnemonic : String) (expected : Nat)
  | tooFewOperands (mnemonic : String) (expected given : Int)
  | notARegister (mnemonic : String) (value : Int)
  | outputRange (index value : Int)
  deriving DecidableEq

namespace Cause

/-- The category of a cause. -/
def category : Cause → Category
  | .unexpectedCharacter _ | .noDigitsAfterMinus | .noSectionName | .noDigits
  | .invalidDigit _ | .openCharacter | .noClosingQuote | .openEscape | .noHexDigits
  | .registerLabel _ => .lexical
  | .outsideSection _ => .misplacedToken
  | .missingSection _ => .missingSection
  | .sectionCount _ _ => .sectionCount
  | .dataEnds _ | .badDeclaration _ _ | .wrongLiteral _ _ _ | .constantRange _ _ =>
      .malformedConstant
  | .duplicateSymbol _ _ => .duplicateSymbol
  | .duplicateConstant _ _ => .duplicateConstant
  | .duplicateLabel _ _ => .duplicateLabel
  | .ambiguousSymbol _ _ => .ambiguousSymbol
  | .missingEntryPoint _ => .missingEntryPoint
  | .undeclaredSymbol _ _ => .undeclaredSymbol
  | .characterRange _ => .misplacedToken
  | .unknownOpcode _ _ => .unknownOpcode
  | .noInstruction _ | .noOperand _ _ | .noSeparator _ _ _ | .tooManyOperands _ _ =>
      .misplacedToken
  | .tooFewOperands _ _ _ => .tooFewOperands
  | .notARegister _ _ => .notARegister
  | .outputRange _ _ => .outputRange

/-- The message of a cause. -/
def message : Cause → String
  | .unexpectedCharacter c => s!"unexpected character '{c}'"
  | .noDigitsAfterMinus => "expected digits after '-'"
  | .noSectionName => "expected section name after '.'"
  | .noDigits => "expected digits after number prefix"
  | .invalidDigit c => s!"invalid digit '{c}' in number"
  | .openCharacter => "unterminated character literal"
  | .noClosingQuote => "expected closing quote for character literal"
  | .openEscape => "unexpected end of input in escape sequence"
  | .noHexDigits => "expected hexadecimal digits after \\x"
  | .registerLabel name => s!"label '{name}' has the name of a register"
  | .outsideSection found => found.describe ++ " outside of any section"
  | .missingSection name => s!"missing '{name}' section"
  | .sectionCount count _ => s!"expected exactly 2 sections ('data' and 'code'), found {count}"
  | .dataEnds expected => "unexpected end of data section, expected " ++ expected.text
  | .badDeclaration expected found =>
      "expected " ++ expected.demand ++ ", got " ++ found.describe
  | .wrongLiteral type name found =>
      type.word ++ s!" constant '{name}' cannot hold " ++ found.describe
  | .constantRange name codePoint =>
      s!"CHR constant '{name}' has code point {codePoint}, outside the value range 0-32767"
  | .duplicateSymbol name _ => s!"duplicate symbol '{name}'"
  | .duplicateConstant name _ => s!"duplicate constant '{name}'"
  | .duplicateLabel name _ => s!"duplicate label '{name}'"
  | .ambiguousSymbol name _ => s!"ambiguous symbol '{name}' is both a label and a constant"
  | .missingEntryPoint name => s!"entry point '{name}' is not defined"
  | .undeclaredSymbol name _ => s!"undeclared symbol '{name}'"
  | .characterRange codePoint =>
      s!"character literal has code point {codePoint}, outside the value range 0-32767"
  | .unknownOpcode name _ => s!"unknown opcode '{name}'"
  | .noInstruction found => "expected an instruction, got " ++ found.describe
  | .noOperand mnemonic found =>
      s!"expected an operand for '{mnemonic}', got " ++ found.describe
  | .noSeparator mnemonic operandsLeft found =>
      let expected := if operandsLeft then "',' or end of line" else "end of line"
      s!"expected {expected} in '{mnemonic}' instruction, got " ++ found.describe
  | .tooManyOperands mnemonic expected =>
      s!"too many operands for '{mnemonic}' (expects {expected})"
  | .tooFewOperands mnemonic expected given =>
      s!"'{mnemonic}' expects {expected} operand(s), got {given}"
  | .notARegister mnemonic value => s!"'{mnemonic}' expects a register, got {value}"
  | .outputRange index value => s!"word {index} has value {value}, outside 0-65535"

/-- A hint that offers the first three of some names; without names there is none. -/
def suggestion
    (form : String → String)
    (names : List String) : Option String :=
  if names.isEmpty then none
  else some ("did you mean " ++ ", ".intercalate ((names.take 3).map form) ++ "?")

/-- The hint of a cause, where there is one. -/
def hint : Cause → Option String
  | .registerLabel _ => some "registers a-h cannot be used as label names"
  | .outsideSection _ => some "start the program with '.data' or '.code'"
  | .missingSection name => some s!"add a '.{name}' line to the source"
  | .sectionCount _ names =>
      if names.isEmpty then none
      else some ("found sections: " ++ ", ".intercalate (names.map fun name => s!"'{name}'"))
  | .badDeclaration _ _ => some "constants are declared as: NAME NUM 123 or NAME CHR 'c'"
  | .wrongLiteral _ _ _ => some "NUM takes a number, CHR takes a character literal"
  | .duplicateSymbol name first | .duplicateConstant name first | .duplicateLabel name first =>
      first.map fun location => s!"'{name}' was first declared at " ++ location.text
  | .ambiguousSymbol name constant =>
      constant.map fun location => s!"constant '{name}' is declared at " ++ location.text
  | .missingEntryPoint name => some s!"declare '{name}:' in the code section"
  | .undeclaredSymbol _ similar => suggestion (fun name => s!"'{name}'") similar
  | .unknownOpcode _ similar => suggestion id similar
  | .notARegister _ _ => some "registers are a-h (32768-32775)"
  | .outputRange _ _ => some "the program is too large for a 16-bit address space"
  | _ => none

/-- Whether every number in the message keeps within the decimal limit. -/
def isWritable : Cause → Bool
  | .outsideSection found | .badDeclaration _ found | .wrongLiteral _ _ found
  | .noInstruction found | .noOperand _ found | .noSeparator _ _ found => found.isWritable
  | .sectionCount count _ => Text.isWritable count
  | .tooFewOperands _ expected given => Text.isWritable expected && Text.isWritable given
  | .notARegister _ value => Text.isWritable value
  | .outputRange index value => Text.isWritable index && Text.isWritable value
  | _ => true

end Cause

/-- A cause and the place it was found at. -/
structure Fault where
  cause : Cause
  location : Option Location := none
  sourceLine : Option String := none
  deriving DecidableEq

/-- The diagnostic of a fault. -/
def Fault.diagnostic (fault : Fault) : Diagnostic where
  category := fault.cause.category
  message := fault.cause.message
  location := fault.location
  hint := fault.cause.hint
  sourceLine := fault.sourceLine

/-- Why a file cannot be read or written. -/
inductive FileFault
  | notFound
  | denied
  | notADirectory
  | isADirectory
  | nameTooLong
  | nullCharacter
  deriving DecidableEq

/-- The report of a file fault. -/
def FileFault.text
    (fault : FileFault)
    (path : String) : String :=
  let place := Text.quoted path
  match fault with
  | .notFound => s!"[Errno 2] No such file or directory: {place}"
  | .denied => s!"[Errno 13] Permission denied: {place}"
  | .notADirectory => s!"[Errno 20] Not a directory: {place}"
  | .isADirectory => s!"[Errno 21] Is a directory: {place}"
  | .nameTooLong => s!"[Errno 36] File name too long: {place}"
  | .nullCharacter => "embedded null byte"

/-- Why no result was reached. -/
inductive Failure
  | program (fault : Fault)
  | longNumeral (digits : Nat)
  | longNumber
  | noRegister (name : String)
  | noCharacter (length : Nat)
  | file (fault : FileFault) (path : String)
  | notText (fault : Text.Utf8.Fault)
  deriving DecidableEq

namespace Failure

/-- Fail with a fault. A fault whose message needs a number beyond the decimal limit cannot be
reported, and the number takes its place. The numbers of its location are not looked at. -/
def ofFault (fault : Fault) : Failure :=
  if fault.cause.isWritable then .program fault else .longNumber

/-- Fail with a cause found at a place. -/
def located
    (location : Location)
    (cause : Cause) : Failure :=
  ofFault { cause, location := some location }

/-- Fail with a cause that concerns the program as a whole. -/
def overall (cause : Cause) : Failure :=
  ofFault { cause }

/-- The report of a failure. -/
def text : Failure → String
  | .program fault => fault.diagnostic.text
  | .longNumeral digits =>
      "Exceeds the limit (4300 digits) for integer string conversion: " ++
        s!"value has {digits} digits; use sys.set_int_max_str_digits() to increase the limit"
  | .longNumber =>
      "Exceeds the limit (4300 digits) for integer string conversion; " ++
        "use sys.set_int_max_str_digits() to increase the limit"
  | .noRegister name => "not a register: " ++ Text.quoted name
  | .noCharacter length =>
      s!"ord() expected a character, but string of length {length} found"
  | .file fault path => fault.text path
  | .notText fault => fault.text

end Failure
end WordAsm
