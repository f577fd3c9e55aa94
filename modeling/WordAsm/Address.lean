import WordAsm.Table
import WordAsm.Token

/-!
# Addresses

Every label is bound to the number of words that stand before it. Labels and punctuation take
no words, every other token takes one.
-/

namespace WordAsm
namespace Address

/-- A label with the word it is bound to and the line of its declaration. -/
structure Binding where
  name : String
  address : Nat
  line : Int
  deriving DecidableEq

/-- Bind the labels of the tokens from an address on, given the bindings before them. -/
def bindingsFrom
    (address : Nat)
    (before : Array Binding) : List Token → List Binding
  | [] => before.toList
  | token :: rest =>
      let before :=
        match token.content with
        | .label name => before.push ⟨name, address, token.location.line⟩
        | _ => before
      bindingsFrom (address + token.content.width) before rest

/-- The bindings of a code section, in order of declaration. -/
def bindings (tokens : List Token) : List Binding :=
  bindingsFrom 0 #[] tokens

/-- The addresses of the labels of a code section; the last declaration of a label counts. -/
def table (tokens : List Token) : Table Int :=
  .ofList ((bindings tokens).map fun binding => (binding.name, (binding.address : Int)))

end Address
end WordAsm
