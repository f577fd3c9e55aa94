import WordAsm.Constant.Compile
import WordAsm.Symbols

/-!
# Resolving operands

Brings the tokens of a code section one by one into the form that is encoded: literals,
registers and constants become numbers, and references to labels stay until the labels have
addresses.
-/

namespace WordAsm
namespace Token

/-- The content that an operand is encoded from. -/
def resolveContent
    (symbols : Symbols)
    (location : Location) : Content → Except Failure Content
  | .number value => .ok (.number (Machine.literal value))
  | .character text => do
      let point ← codePoint text
      if Machine.valueSpace ≤ point then .error (.located location (.characterRange point))
      else .ok (.number point)
  | .register name =>
      match Machine.registerAddress? name with
      | some address => .ok (.number address)
      | none => .error (.noRegister name)
  | .symbol name =>
      match symbols.constants.get? name with
      | some constant => .ok (.number constant.value)
      | none =>
          if symbols.isLabel name then .ok (.symbol name)
          else .error (.located location (.undeclaredSymbol name (symbols.similar name)))
  | content => .ok content

/-- Resolve one token, which keeps its place. -/
def resolve
    (symbols : Symbols)
    (token : Token) : Except Failure Token :=
  (resolveContent symbols token.location token.content).map fun content => { token with content }

/-- Resolve the tokens of a code section. -/
def resolveAll
    (symbols : Symbols)
    (tokens : List Token) : Except Failure (List Token) :=
  tokens.mapM (resolve symbols)

end Token
end WordAsm
