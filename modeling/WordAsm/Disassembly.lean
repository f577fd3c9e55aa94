import WordAsm.Instruction

/-!
# Disassembly

Reads a program word by word: the first word of an instruction is its opcode, which says how
many operands follow.
-/

namespace WordAsm
namespace Disassembly

/-- An instruction found in a program. -/
structure Line where
  address : Int
  mnemonic : String
  words : List Int
  deriving DecidableEq

/-- The instructions in the words from an address on; nothing if a word that must be an opcode
is none, or if the words end within an instruction. -/
def sweepFrom
    (address : Nat)
    (words : List Int) : Option (List Line) :=
  match words with
  | [] => some []
  | word :: rest =>
      match Instruction.ofOpcode? word with
      | none => none
      | some instruction =>
          let count := instruction.operands.length
          if rest.length < count then none
          else
            (sweepFrom (address + instruction.size) (rest.drop count)).map fun lines =>
              ⟨address, instruction.mnemonic, word :: rest.take count⟩ :: lines
termination_by words.length
decreasing_by
  rw [List.length_drop, List.length_cons]
  exact Nat.lt_succ_of_le (Nat.sub_le _ _)

/-- The instructions of a program. -/
def sweep (words : List Int) : Option (List Line) :=
  sweepFrom 0 words

end Disassembly
end WordAsm
