import WordAsm.Address
import WordAsm.Failure
import WordAsm.Instruction
import WordAsm.Machine
import WordAsm.Text.CloseMatch

/-!
# Encoding instructions

Turns resolved code tokens into words. The encoder stands between two instructions, before an
operand, or behind an operand where a comma or the end of the line must follow. What is still
missing of an instruction is kept as the list of its remaining operand kinds.
-/

namespace WordAsm

/-- An encoded instruction: its address, its source line, and its opcode and operand words. -/
structure Entry where
  address : Int
  line : Int
  mnemonic : String
  words : List Int
  deriving DecidableEq

namespace Encoder

/-- An instruction of which some operands have been read. -/
structure Pending where
  instruction : Instruction
  line : Int
  operands : List Int := []
  deriving DecidableEq

/-- What the encoder expects next. -/
inductive State
  | instruction
  | operand (pending : Pending) (kind : OperandKind) (later : List OperandKind)
  | separator (pending : Pending) (later : List OperandKind)
  deriving DecidableEq

/-- The entry of an instruction with all its operands. -/
def Pending.entry
    (pending : Pending)
    (address : Nat) : Entry where
  address := address
  line := pending.line
  mnemonic := pending.instruction.mnemonic
  words := pending.instruction.opcode :: pending.operands

/-- Fail because the line ends before an instruction has all its operands. -/
def Pending.tooFew
    (pending : Pending)
    (location : Location) : Failure :=
  .located location (.tooFewOperands pending.instruction.mnemonic
    pending.instruction.operands.length pending.operands.length)

/-- Begin an instruction. -/
def beginInstruction
    (name : String)
    (location : Location) : Except Failure State :=
  match Instruction.ofMnemonic? name with
  | none =>
      let similar := Text.closeMatches (Text.upperCase name) Instruction.mnemonics
      .error (.located location (.unknownOpcode name similar))
  | some instruction =>
      let pending : Pending := { instruction, line := location.line }
      match instruction.operands with
      | [] => .ok (.separator pending [])
      | kind :: later => .ok (.operand pending kind later)

/-- The word of an operand of an instruction. -/
def operandWord
    (addresses : Table Int)
    (pending : Pending)
    (token : Token) : Except Failure Int :=
  match token.content with
  | .lineEnd => .error (pending.tooFew token.location)
  | .number value => .ok value
  | .symbol name =>
      match addresses.get? name with
      | some address => .ok address
      | none =>
          let similar := Text.closeMatches name addresses.names
          .error (.located token.location (.undeclaredSymbol name similar))
  | content =>
      .error (.located token.location (.noOperand pending.instruction.mnemonic content))

/-- Whether a word may stand for an operand of a kind: only registers are restricted. -/
def fits : OperandKind → Int → Bool
  | .register, word => Machine.isRegisterAddress word
  | .value, _ | .target, _ => true

/-- Read an operand. -/
def readOperand
    (addresses : Table Int)
    (pending : Pending)
    (kind : OperandKind)
    (later : List OperandKind)
    (token : Token) : Except Failure State := do
  let word ← operandWord addresses pending token
  if fits kind word then
    .ok (.separator { pending with operands := pending.operands ++ [word] } later)
  else
    .error (.located token.location (.notARegister pending.instruction.mnemonic word))

end Encoder

/-- The entries so far, the address of the next instruction, and what is expected next. -/
structure Encoder where
  entries : Array Entry := #[]
  address : Nat := 0
  state : Encoder.State := .instruction

namespace Encoder

/-- Close an instruction. -/
def close
    (encoder : Encoder)
    (pending : Pending) : Encoder where
  entries := encoder.entries.push (pending.entry encoder.address)
  address := encoder.address + pending.operands.length + 1
  state := .instruction

/-- Read one token. -/
def step
    (addresses : Table Int)
    (encoder : Encoder)
    (token : Token) : Except Failure Encoder :=
  match encoder.state with
  | .instruction =>
      match token.content with
      | .label _ | .lineEnd => .ok encoder
      | .mnemonic name => do
          let state ← beginInstruction name token.location
          .ok { encoder with state }
      | content => .error (.located token.location (.noInstruction content))
  | .operand pending kind later => do
      let state ← readOperand addresses pending kind later token
      .ok { encoder with state }
  | .separator pending [] =>
      match token.content with
      | .lineEnd => .ok (encoder.close pending)
      | .comma =>
          .error (.located token.location (.tooManyOperands pending.instruction.mnemonic
            pending.instruction.operands.length))
      | content =>
          .error (.located token.location
            (.noSeparator pending.instruction.mnemonic false content))
  | .separator pending (kind :: later) =>
      match token.content with
      | .lineEnd => .error (pending.tooFew token.location)
      | .comma => .ok { encoder with state := .operand pending kind later }
      | content =>
          .error (.located token.location
            (.noSeparator pending.instruction.mnemonic true content))

/-- The entries at the end of a token list, which may stand for the end of a line. -/
def finish
    (encoder : Encoder)
    (last : Location) : Except Failure (List Entry) :=
  match encoder.state with
  | .instruction => .ok encoder.entries.toList
  | .separator pending [] => .ok (encoder.close pending).entries.toList
  | .operand pending _ _ | .separator pending (_ :: _) => .error (pending.tooFew last)

/-- Encode a list of resolved tokens into entries. -/
def entriesOf
    (addresses : Table Int)
    (tokens : List Token) : Except Failure (List Entry) := do
  let encoder ← tokens.foldlM (step addresses) {}
  match tokens.getLast? with
  | none => .ok []
  | some last => encoder.finish last.location

end Encoder

/-- The words of some entries. -/
def Entry.allWords (entries : List Entry) : List Int :=
  entries.flatMap (·.words)

/-- Encode a list of resolved tokens into words. -/
def encode
    (addresses : Table Int)
    (tokens : List Token) : Except Failure (List Int) :=
  (Encoder.entriesOf addresses tokens).map Entry.allWords

/-- The code of a program: the addresses of its labels and its entries. -/
structure Code where
  labels : Table Int := {}
  entries : List Entry := []
  deriving DecidableEq

namespace Code

/-- The words of the code. -/
def words (code : Code) : List Int :=
  Entry.allWords code.entries

/-- Bind the labels of resolved tokens and encode them. -/
def generate (tokens : List Token) : Except Failure Code := do
  let labels := Address.table tokens
  let entries ← Encoder.entriesOf labels tokens
  .ok { labels, entries }

/-- Generate code in place of an earlier one, which stays if that fails. -/
def regenerate
    (earlier : Code)
    (tokens : List Token) : Except Failure Code × Code :=
  match generate tokens with
  | .ok code => (.ok code, code)
  | .error failure => (.error failure, earlier)

end Code
end WordAsm
