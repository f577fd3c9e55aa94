import WordAsm.Failure
import WordAsm.Machine
import WordAsm.Table

/-!
# The data section

Compiles the declarations of a data section into constants. Numbers are reduced into the value
space, characters stand for their code points and must lie in it. Only when every declaration
is well formed are the names compared.
-/

namespace WordAsm

/-- The code point of a character token, whose text must be a single character. -/
def codePoint (text : String) : Except Failure Nat :=
  match text.toList with
  | [c] => .ok c.toNat
  | others => .error (.noCharacter others.length)

namespace Constant

/-- Fail because something else stands in the place of a part of a declaration. -/
def unexpected
    (part : DeclarationPart)
    (token : Token) : Failure :=
  .located token.location (.badDeclaration part token.content)

/-- Fail because the section ends before a part of a declaration; the end is reported at its
last token. -/
def endsBefore
    (part : DeclarationPart)
    (last : Token) : Failure :=
  .located last.location (.dataEnds part)

/-- The name that a declaration starts with. -/
def nameOf (token : Token) : Except Failure String :=
  match token.content with
  | .symbol name => .ok name
  | _ => .error (unexpected .name token)

/-- The type that the second token of a declaration names. -/
def typeOf (token : Token) : Except Failure ConstantType :=
  match token.content with
  | .typeWord word =>
      match ConstantType.ofWord? word with
      | some type => .ok type
      | none => .error (unexpected .typeWord token)
  | _ => .error (unexpected .typeWord token)

/-- A literal of a declaration. -/
inductive Literal
  | number (value : Int)
  | character (text : String)
  deriving DecidableEq

/-- The literal of a declaration; it must be of the declared type. -/
def literalOf
    (name : String)
    (type : ConstantType)
    (token : Token) : Except Failure Literal :=
  match type, token.content with
  | .number, .number value => .ok (.number value)
  | .character, .character text => .ok (.character text)
  | .number, .character _ | .character, .number _ =>
      .error (.located token.location (.wrongLiteral type name token.content))
  | _, _ => .error (unexpected (.literal type) token)

/-- The value of a literal. -/
def Literal.value
    (name : String)
    (location : Location) : Literal → Except Failure Int
  | .number value => .ok (Machine.literal value)
  | .character text => do
      let point ← codePoint text
      if Machine.valueSpace ≤ point then .error (.located location (.constantRange name point))
      else .ok point

/-- Compile the declarations of the remaining tokens, given the constants before them. -/
def declarations
    (before : Array Constant) : List Token → Except Failure (List Constant)
  | [] => .ok before.toList
  | first :: rest =>
      match nameOf first with
      | .error failure => .error failure
      | .ok name =>
      match rest with
      | [] => .error (endsBefore .typeWord first)
      | second :: rest =>
      match typeOf second with
      | .error failure => .error failure
      | .ok type =>
      match rest with
      | [] => .error (endsBefore (.literal type) second)
      | third :: rest =>
      match literalOf name type third with
      | .error failure => .error failure
      | .ok literal =>
      match rest with
      | [] => .error (endsBefore .lineEnd third)
      | fourth :: rest =>
      if fourth.content ≠ .lineEnd then .error (unexpected .lineEnd fourth)
      else
      match literal.value name third.location with
      | .error failure => .error failure
      | .ok value =>
          let constant : Constant :=
            { name, value, line := first.location.line, file := first.location.file }
          declarations (before.push constant) rest

/-- The first constant whose name is taken, with the one that took it. -/
def firstRepeat
    (before : Table Constant) : List Constant → Option (Constant × Constant)
  | [] => none
  | constant :: rest =>
      match before.get? constant.name with
      | some earlier => some (constant, earlier)
      | none => firstRepeat (before.insert constant.name constant) rest

/-- Compile a data section into its constants, in order of declaration. -/
def compile (tokens : List Token) : Except Failure (List Constant) := do
  let constants ← declarations #[] tokens
  match firstRepeat {} constants with
  | some (constant, earlier) =>
      .error (.located constant.location
        (.duplicateConstant constant.name (some earlier.location)))
  | none => .ok constants

end Constant
end WordAsm
