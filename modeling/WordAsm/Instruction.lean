import WordAsm.Text.Number
import WordAsm.Text.UpperCase

/-!
# The instruction set

Every instruction has a mnemonic, an opcode word and a fixed list of operand kinds. Opcode and
operands take one word each.
-/

namespace WordAsm

/-- What an operand of an instruction must be. -/
inductive OperandKind
  | register
  | value
  | target
  deriving DecidableEq

/-- The name of an operand kind in listings of the instruction set. -/
def OperandKind.text : OperandKind → String
  | .register => "REG"
  | .value => "VAL"
  | .target => "TAG"

/-- An instruction of the machine. -/
structure Instruction where
  mnemonic : String
  opcode : Nat
  operands : List OperandKind
  deriving DecidableEq

namespace Instruction

/-- Number of words of an instruction. -/
def size (instruction : Instruction) : Nat :=
  instruction.operands.length + 1

/-- The instructions of the machine, by opcode. -/
def all : List Instruction := [
    ⟨"HALT", 0, []⟩,
    ⟨"SET", 1, [.register, .value]⟩,
    ⟨"PUSH", 2, [.value]⟩,
    ⟨"POP", 3, [.register]⟩,
    ⟨"EQ", 4, [.register, .value, .value]⟩,
    ⟨"GT", 5, [.register, .value, .value]⟩,
    ⟨"JMP", 6, [.target]⟩,
    ⟨"JT", 7, [.value, .target]⟩,
    ⟨"JF", 8, [.value, .target]⟩,
    ⟨"ADD", 9, [.register, .value, .value]⟩,
    ⟨"MULT", 10, [.register, .value, .value]⟩,
    ⟨"MOD", 11, [.register, .value, .value]⟩,
    ⟨"AND", 12, [.register, .value, .value]⟩,
    ⟨"OR", 13, [.register, .value, .value]⟩,
    ⟨"NOT", 14, [.register, .value]⟩,
    ⟨"RMEM", 15, [.register, .value]⟩,
    ⟨"WMEM", 16, [.value, .register]⟩,
    ⟨"CALL", 17, [.target]⟩,
    ⟨"RET", 18, []⟩,
    ⟨"OUT", 19, [.value]⟩,
    ⟨"IN", 20, [.register]⟩,
    ⟨"NOOP", 21, []⟩]

/-- The mnemonics in alphabetical order. -/
def mnemonics : List String :=
  (all.map (·.mnemonic)).mergeSort

/-- The instruction of a mnemonic, whatever the case of its letters. -/
def ofMnemonic? (name : String) : Option Instruction :=
  let capitals := Text.upperCase name
  all.find? (·.mnemonic == capitals)

/-- The instruction of an opcode word. -/
def ofOpcode? (word : Int) : Option Instruction :=
  all.find? (·.opcode == word)

/-- The signature of an instruction on one line. -/
def text (instruction : Instruction) : String :=
  let opcode := Text.hexadecimal 2 instruction.opcode
  let kinds := ",".intercalate (instruction.operands.map (·.text))
  let mnemonic := instruction.mnemonic
  s!"InstructionInfo({mnemonic}, opcode=${opcode}, [{kinds}])"

end Instruction
end WordAsm
