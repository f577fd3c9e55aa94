import WordAsm.Proofs.Token.Spelling
import WordAsm.Instruction

/-!
# Abstract programs

A program without its text: declared constants, and labels and operations in order. Every part
carries the proof that it is well formed, so a program can always be written down. It has a
text, with one declaration, label or operation on a line, and a translation into words that
needs neither tokens nor passes.
-/

namespace WordAsm

/-- A name that a program may declare: it is not a register's, and in no letter case is it a
type word. -/
@[ext] structure Name where
  text : String
  spelled : Lexeme.isName text = true := by decide
  unregistered : Machine.isRegisterName text = false := by decide
  untyped : ConstantType.ofWord? (String.ofList (text.toList.map Char.toUpper)) = none := by decide
  deriving DecidableEq

namespace Program

/-- A register by its number, and the case of the letter that is written for it. -/
structure Register where
  index : Fin 8
  capital : Bool := false
  deriving DecidableEq

/-- The letter of a register. -/
def Register.letter (register : Register) : Char :=
  Char.ofNat ((if register.capital then 'A' else 'a').toNat + register.index)

/-- A number of any size, or a character in the value space. -/
inductive Literal
  | number (value : Int)
  | character (c : Char) (small : c.toNat < 32768)
  deriving DecidableEq

namespace Literal

/-- The type of a constant with a literal. -/
def type : Literal → ConstantType
  | .number _ => .number
  | .character _ _ => .character

/-- The word of a literal. -/
def word : Literal → Int
  | .number value => value % 32768
  | .character c _ => c.toNat

/-- A literal in a source. -/
def content : Literal → Token.Content
  | .number value => .number value
  | .character c _ => .character (String.ofList [c])

end Literal

/-- A constant with its literal. -/
structure Declaration where
  name : Name
  literal : Literal
  deriving DecidableEq

/-- The name that a declaration binds, and the word that it is bound to. -/
def Declaration.binding (declaration : Declaration) : String × Int :=
  (declaration.name.text, declaration.literal.word)

/-- An operand of an operation. A constant stands for its declaration. -/
inductive Operand
  | register (slot : Register)
  | literal (given : Literal)
  | constant (declaration : Declaration)
  | label (name : Name)
  deriving DecidableEq

namespace Operand

/-- An operand in a source. -/
def content : Operand → Token.Content
  | .register slot => .register (String.ofList [slot.letter])
  | .literal given => given.content
  | .constant declaration => .symbol declaration.name.text
  | .label name => .symbol name.text

/-- The word of an operand, given the addresses of the labels. -/
def word (address : Name → Nat) : Operand → Int
  | .register slot => 32768 + (slot.index : Nat)
  | .literal given => given.word
  | .constant declaration => declaration.literal.word
  | .label name => address name

/-- Whether an operand is a register. -/
def isRegister : Operand → Bool
  | .register _ => true
  | _ => false

/-- Whether an operand may stand where an operand of a kind is needed. -/
def Fits
    (kind : OperandKind)
    (operand : Operand) : Prop :=
  kind = .register → operand.isRegister = true
  deriving Decidable

/-- Whether the name of an operand is declared. -/
def Declared
    (constants : List Declaration)
    (labels : List Name) : Operand → Prop
  | .constant declaration => declaration ∈ constants
  | .label name => name ∈ labels
  | .register _ | .literal _ => True

instance decidableDeclared
    (constants : List Declaration)
    (labels : List Name)
    (operand : Operand) : Decidable (operand.Declared constants labels) :=
  match operand with
  | .constant declaration => inferInstanceAs (Decidable (declaration ∈ constants))
  | .label name => inferInstanceAs (Decidable (name ∈ labels))
  | .register _ | .literal _ => isTrue trivial

end Operand

/-- An instruction of the machine with its operands. -/
structure Operation where
  instruction : Instruction
  operands : List Operand
  known : instruction ∈ Instruction.all := by decide
  fitting : List.Forall₂ Operand.Fits instruction.operands operands := by decide

/-- The words of an operation. -/
def Operation.words
    (address : Name → Nat)
    (operation : Operation) : List Int :=
  operation.instruction.opcode :: operation.operands.map (Operand.word address)

/-- A line of a code section. -/
inductive Item
  | label (name : Name)
  | operation (body : Operation)

namespace Item

/-- The name that an item declares. -/
def label? : Item → Option Name
  | .label name => some name
  | .operation _ => none

/-- The operands of an item. -/
def operands : Item → List Operand
  | .label _ => []
  | .operation body => body.operands

/-- The words of an item, given the addresses of the labels. -/
def words (address : Name → Nat) : Item → List Int
  | .label _ => []
  | .operation body => body.words address

/-- Number of words of an item. -/
def size : Item → Nat
  | .label _ => 0
  | .operation body => body.instruction.size

end Item
end Program

/-- A program. Its names are declared once, and execution starts at one of its labels. -/
structure Program where
  constants : List Program.Declaration
  items : List Program.Item
  entry : Name
  distinct : (constants.map (·.name) ++ items.filterMap (·.label?)).Nodup
  entered : entry ∈ items.filterMap (·.label?)
  declared : ∀ item ∈ items, ∀ operand ∈ item.operands,
    operand.Declared constants (items.filterMap (·.label?))

namespace Program

/-- The labels of a program in order of declaration. -/
def labels (program : Program) : List Name :=
  program.items.filterMap (·.label?)

/-- The address of a label: the number of words before its declaration. -/
def address
    (program : Program)
    (name : Name) : Nat :=
  ((program.items.takeWhile fun item => item.label? != some name).map Item.size).sum

/-- The words of a program, instruction by instruction. -/
def words (program : Program) : List Int :=
  program.items.flatMap (Item.words program.address)

/-- A declaration on a line. -/
def Declaration.line (declaration : Declaration) : List Char :=
  declaration.name.text.toList ++ ' ' :: declaration.literal.type.word.toList ++
    ' ' :: declaration.literal.content.spelling ++ ['\n']

/-- The operands of an operation, with commas between them. -/
def Operand.list : List Operand → List Char
  | [] => []
  | first :: later =>
      ' ' :: first.content.spelling ++
        later.flatMap fun operand => ',' :: ' ' :: operand.content.spelling

/-- An item on a line. -/
def Item.line : Item → List Char
  | .label name => name.text.toList ++ [':', '\n']
  | .operation body =>
      body.instruction.mnemonic.toList ++ Operand.list body.operands ++ ['\n']

/-- The text of a program: the constants in a data section, then the items in a code section. -/
def text (program : Program) : String :=
  String.ofList (".data\n".toList ++ program.constants.flatMap Declaration.line ++
    ".code\n".toList ++ program.items.flatMap Item.line)

end Program
end WordAsm
