import Mathlib.Algebra.GroupWithZero.Nat
import WordAsm.Encoding
import WordAsm.Proofs.Outcome

/-!
# Moves of the encoder

What the encoder does with one token depends only on what it expects. A move names the
expectations before and behind a token and the instructions that the token completes. Reading
succeeds exactly when the moves for its tokens exist, and then the completed instructions stand
behind the earlier entries, each at the address where the one before it ends. All along, the
operands that have been read suit the first operand kinds of their instruction.
-/

namespace WordAsm

/-- The registers have the eight addresses from 32768 on. -/
theorem Machine.isRegisterAddress_iff (word : Int) :
    isRegisterAddress word = true ↔ 32768 ≤ word ∧ word ≤ 32775 := by
  rw [isRegisterAddress, Bool.and_eq_true, decide_eq_true_iff, decide_eq_true_iff]
  simp only [registerBase, registerCount]
  omega

/-- An instruction is found under its mnemonic, whatever the case of the letters. -/
theorem Instruction.ofMnemonic?_eq_some_iff
    (name : String)
    (instruction : Instruction) :
    ofMnemonic? name = some instruction ↔
      instruction ∈ all ∧ instruction.mnemonic = Text.upperCase name := by
  have distinct : ∀ first ∈ all, ∀ second ∈ all,
      first.mnemonic = second.mnemonic → first = second := by
    decide
  rw [ofMnemonic?]
  constructor
  · intro found
    exact ⟨List.mem_of_find?_eq_some found, by simpa using List.find?_some found⟩
  · rintro ⟨listed, named⟩
    cases found : all.find? (·.mnemonic == Text.upperCase name) with
    | none =>
        have missing := List.find?_eq_none.mp found instruction listed
        simp [named] at missing
    | some other =>
        have same : other.mnemonic = Text.upperCase name := by
          simpa using List.find?_some found
        rw [distinct other (List.mem_of_find?_eq_some found) instruction listed
          (same.trans named.symm)]

namespace Encoder

/-- The word that an operand stands for: a number stands for itself, a name for its address. -/
inductive Denotes (addresses : Table Int) : Token.Content → Int → Prop
  | number (value : Int) :
      Denotes addresses (.number value) value
  | name {name : String} {address : Int} :
      addresses.get? name = some address →
      Denotes addresses (.symbol name) address

/-- Where an instruction needs a register, only the address of a register will do. -/
def Suits
    (kind : OperandKind)
    (word : Int) : Prop :=
  kind = .register → 32768 ≤ word ∧ word ≤ 32775

theorem suits_iff_fits
    (kind : OperandKind)
    (word : Int) :
    Suits kind word ↔ fits kind word = true := by
  cases kind with
  | register =>
      rw [fits, Machine.isRegisterAddress_iff]
      exact ⟨fun suits => suits rfl, fun range _ => range⟩
  | value => simp [Suits, fits]
  | target => simp [Suits, fits]

theorem operandWord_eq_ok_iff
    (addresses : Table Int)
    (pending : Pending)
    (token : Token)
    (word : Int) :
    operandWord addresses pending token = .ok word ↔ Denotes addresses token.content word := by
  unfold operandWord
  constructor
  · intro read
    split at read
    · cases read
    · next content =>
        cases read
        exact content ▸ .number word
    · next name content =>
        split at read
        · next address found =>
            cases read
            exact content ▸ .name found
        · cases read
    · cases read
  · intro denotes
    generalize token.content = content at denotes
    cases denotes with
    | number value => rfl
    | name found => simp [found]

/-- What one token does to the expectations of the encoder, and what it completes. -/
inductive Move (addresses : Table Int) : State → Token → State → List Pending → Prop
  | skip {token : Token} :
      (token.content = .lineEnd ∨ ∃ name, token.content = .label name) →
      Move addresses .instruction token .instruction []
  | beginPlain {token : Token} {name : String} {instruction : Instruction} :
      token.content = .mnemonic name →
      Instruction.ofMnemonic? name = some instruction →
      instruction.operands = [] →
      Move addresses .instruction token (.separator ⟨instruction, token.location.line, []⟩ []) []
  | begin {token : Token} {name : String} {instruction : Instruction} {kind : OperandKind}
      {later : List OperandKind} :
      token.content = .mnemonic name →
      Instruction.ofMnemonic? name = some instruction →
      instruction.operands = kind :: later →
      Move addresses .instruction token
        (.operand ⟨instruction, token.location.line, []⟩ kind later) []
  | operand {token : Token} {pending : Pending} {kind : OperandKind} {later : List OperandKind}
      {word : Int} :
      Denotes addresses token.content word →
      Suits kind word →
      Move addresses (.operand pending kind later) token
        (.separator { pending with operands := pending.operands ++ [word] } later) []
  | comma {token : Token} {pending : Pending} {kind : OperandKind} {later : List OperandKind} :
      token.content = .comma →
      Move addresses (.separator pending (kind :: later)) token (.operand pending kind later) []
  | close {token : Token} {pending : Pending} :
      token.content = .lineEnd →
      Move addresses (.separator pending []) token .instruction [pending]

/-- Number of words of an instruction with the operands it has. -/
def Pending.size (pending : Pending) : Nat :=
  pending.operands.length + 1

/-- Number of words of instructions in a row. -/
def totalSize (statements : List Pending) : Nat :=
  (statements.map Pending.size).sum

@[simp] theorem totalSize_nil : totalSize [] = 0 := rfl

@[simp] theorem totalSize_cons
    (statement : Pending)
    (statements : List Pending) :
    totalSize (statement :: statements) = statement.size + totalSize statements := rfl

@[simp] theorem totalSize_append
    (first second : List Pending) :
    totalSize (first ++ second) = totalSize first + totalSize second := by
  simp [totalSize]

/-- The entries of instructions that stand one behind the other from an address on. -/
def place
    (address : Nat) : List Pending → List Entry
  | [] => []
  | statement :: statements =>
      statement.entry address :: place (address + statement.size) statements

theorem place_append
    (address : Nat)
    (first second : List Pending) :
    place address (first ++ second) =
      place address first ++ place (address + totalSize first) second := by
  induction first generalizing address with
  | nil => rfl
  | cons statement statements hypothesis =>
      simp [place, hypothesis, Nat.add_assoc]

/-- Complete some instructions and expect what is given next. -/
def advance
    (encoder : Encoder)
    (state : State)
    (completed : List Pending) : Encoder where
  entries := ⟨encoder.entries.toList ++ place encoder.address completed⟩
  address := encoder.address + totalSize completed
  state := state

theorem advance_nil
    (encoder : Encoder)
    (state : State) :
    encoder.advance state [] = { encoder with state } := by
  simp [advance, place]

theorem advance_self (encoder : Encoder) :
    encoder.advance encoder.state [] = encoder :=
  advance_nil encoder encoder.state

theorem advance_advance
    (encoder : Encoder)
    (first second : State)
    (earlier later : List Pending) :
    (encoder.advance first earlier).advance second later =
      encoder.advance second (earlier ++ later) := by
  simp [advance, place_append, Nat.add_assoc]

theorem close_eq_advance
    (encoder : Encoder)
    (pending : Pending) :
    encoder.close pending = encoder.advance .instruction [pending] := by
  have entries : encoder.entries.push (pending.entry encoder.address) =
      ⟨encoder.entries.toList ++ [pending.entry encoder.address]⟩ := by
    rw [← Array.toList_inj, Array.toList_push]
  simp [close, advance, place, Pending.size, Nat.add_assoc, entries]

theorem beginInstruction_eq_ok_iff
    (addresses : Table Int)
    (name : String)
    (token : Token)
    (state : State)
    (content : token.content = .mnemonic name) :
    beginInstruction name token.location = .ok state ↔
      Move addresses .instruction token state [] := by
  unfold beginInstruction
  constructor
  · intro begun
    split at begun
    · cases begun
    · next instruction found =>
        dsimp only at begun
        split at begun
        · next plain =>
            cases begun
            exact .beginPlain content found plain
        · next kind later operands =>
            cases begun
            exact .begin content found operands
  · intro move
    cases move with
    | skip ignored =>
        rw [content] at ignored
        simp at ignored
    | beginPlain known found plain =>
        cases content.symm.trans known
        simp [found, plain]
    | begin known found operands =>
        cases content.symm.trans known
        simp [found, operands]

theorem readOperand_eq_ok_iff
    (addresses : Table Int)
    (pending : Pending)
    (kind : OperandKind)
    (later : List OperandKind)
    (token : Token)
    (state : State) :
    readOperand addresses pending kind later token = .ok state ↔
      Move addresses (.operand pending kind later) token state [] := by
  rw [readOperand, Outcome.bind_eq_ok_iff]
  constructor
  · rintro ⟨word, value, read⟩
    split at read
    · next suits =>
        cases read
        exact .operand ((operandWord_eq_ok_iff ..).mp value) ((suits_iff_fits ..).mpr suits)
    · cases read
  · intro move
    cases move with
    | @operand _ _ _ _ word denotes suits =>
        exact ⟨word, (operandWord_eq_ok_iff ..).mpr denotes, if_pos ((suits_iff_fits ..).mp suits)⟩

/-- Where reading a token succeeds, there is a move for it. -/
theorem exists_move_of_step
    {addresses : Table Int}
    {encoder next : Encoder}
    {token : Token}
    (read : step addresses encoder token = .ok next) :
    ∃ state completed, Move addresses encoder.state token state completed ∧
      next = encoder.advance state completed := by
  unfold step at read
  split at read
  · next expected =>
      rw [expected]
      have skipped (ignored : token.content = .lineEnd ∨ ∃ name, token.content = .label name) :
          ∃ state completed, Move addresses .instruction token state completed ∧
            encoder = encoder.advance state completed :=
        ⟨.instruction, [], .skip ignored, expected ▸ encoder.advance_self.symm⟩
      split at read
      · next name content =>
          cases read
          exact skipped (.inr ⟨name, content⟩)
      · next content =>
          cases read
          exact skipped (.inl content)
      · next name content =>
          obtain ⟨state, begun, stepped⟩ := Outcome.bind_eq_ok_iff.mp read
          cases stepped
          have move := (beginInstruction_eq_ok_iff addresses name token state content).mp begun
          exact ⟨state, [], move, (encoder.advance_nil state).symm⟩
      · cases read
  · next pending kind later expected =>
      obtain ⟨state, operand, stepped⟩ := Outcome.bind_eq_ok_iff.mp read
      cases stepped
      rw [expected]
      exact ⟨state, [], (readOperand_eq_ok_iff ..).mp operand, (encoder.advance_nil state).symm⟩
  · next pending expected =>
      rw [expected]
      split at read
      · next content =>
          cases read
          exact ⟨.instruction, [pending], .close content, encoder.close_eq_advance pending⟩
      · cases read
      · cases read
  · next pending kind later expected =>
      rw [expected]
      split at read
      · cases read
      · next content =>
          cases read
          exact ⟨.operand pending kind later, [], .comma content, (encoder.advance_nil _).symm⟩
      · cases read

/-- Where there is a move for a token, reading it succeeds. -/
theorem step_of_move
    {addresses : Table Int}
    {encoder : Encoder}
    {token : Token}
    {state : State}
    {completed : List Pending}
    (move : Move addresses encoder.state token state completed) :
    step addresses encoder token = .ok (encoder.advance state completed) := by
  generalize expected : encoder.state = before at move
  cases move with
  | skip ignored =>
      have stays : encoder.advance .instruction [] = encoder := expected ▸ encoder.advance_self
      rw [stays]
      rcases ignored with content | ⟨name, content⟩ <;> simp [step, expected, content]
  | beginPlain content found plain =>
      have begun := (beginInstruction_eq_ok_iff addresses _ token _ content).mpr
        (.beginPlain content found plain)
      simp [step, expected, content, begun, advance_nil, bind, Except.bind]
  | begin content found operands =>
      have begun := (beginInstruction_eq_ok_iff addresses _ token _ content).mpr
        (.begin content found operands)
      simp [step, expected, content, begun, advance_nil, bind, Except.bind]
  | @operand _ pending kind later word denotes suits =>
      have operand := (readOperand_eq_ok_iff addresses pending kind later token _).mpr
        (.operand denotes suits)
      simp [step, expected, operand, advance_nil, bind, Except.bind]
  | comma content => simp [step, expected, content, advance_nil]
  | close content => simp [step, expected, content, close_eq_advance]

/-- Moves for tokens one after the other, and all that they complete. -/
inductive Moves (addresses : Table Int) : State → List Token → State → List Pending → Prop
  | nil (state : State) :
      Moves addresses state [] state []
  | cons {first second last : State} {token : Token} {tokens : List Token}
      {earlier later : List Pending} :
      Move addresses first token second earlier →
      Moves addresses second tokens last later →
      Moves addresses first (token :: tokens) last (earlier ++ later)

/-- Reading tokens succeeds exactly when there are moves for them. -/
theorem foldlM_step_eq_ok_iff
    (addresses : Table Int)
    (encoder final : Encoder)
    (tokens : List Token) :
    tokens.foldlM (step addresses) encoder = .ok final ↔
      ∃ state completed, Moves addresses encoder.state tokens state completed ∧
        final = encoder.advance state completed := by
  induction tokens generalizing encoder with
  | nil =>
      constructor
      · intro read
        cases read
        exact ⟨_, [], .nil _, (advance_self _).symm⟩
      · rintro ⟨state, completed, moves, rfl⟩
        cases moves
        rw [advance_self]
        rfl
  | cons token tokens hypothesis =>
      rw [List.foldlM_cons, Outcome.bind_eq_ok_iff]
      constructor
      · rintro ⟨next, stepped, read⟩
        obtain ⟨second, earlier, move, rfl⟩ := exists_move_of_step stepped
        obtain ⟨last, later, moves, rfl⟩ := (hypothesis _).mp read
        exact ⟨last, earlier ++ later, .cons move moves, advance_advance ..⟩
      · rintro ⟨state, completed, moves, rfl⟩
        cases moves with
        | cons move moves =>
            refine ⟨_, step_of_move move, ?_⟩
            exact (hypothesis _).mpr ⟨_, _, moves, (advance_advance ..).symm⟩

/-- The encoder may stop between instructions, or behind one with all its operands, which is
then completed. -/
inductive Stops : State → List Pending → Prop
  | between : Stops .instruction []
  | behind (pending : Pending) : Stops (.separator pending []) [pending]

theorem finish_eq_ok_iff
    (encoder : Encoder)
    (last : Location)
    (entries : List Entry) :
    encoder.finish last = .ok entries ↔
      ∃ completed, Stops encoder.state completed ∧
        entries = (encoder.advance .instruction completed).entries.toList := by
  unfold finish
  constructor
  · intro finished
    split at finished
    · next expected =>
        cases finished
        exact ⟨[], expected ▸ .between, by simp [advance_nil]⟩
    · next pending expected =>
        cases finished
        exact ⟨[pending], expected ▸ .behind pending, by rw [close_eq_advance]⟩
    · cases finished
    · cases finished
  · rintro ⟨completed, stops, rfl⟩
    generalize expected : encoder.state = state at stops
    cases stops with
    | between => simp [advance_nil]
    | behind pending => simp [close_eq_advance]

/-- Encoding succeeds exactly when the moves for the tokens end where the encoder may stop, and
its entries are the completed instructions one behind the other. -/
theorem entriesOf_eq_ok_iff
    (addresses : Table Int)
    (tokens : List Token)
    (entries : List Entry) :
    entriesOf addresses tokens = .ok entries ↔
      ∃ state completed last, Moves addresses .instruction tokens state completed ∧
        Stops state last ∧ entries = place 0 (completed ++ last) := by
  have placed (state : State) (completed last : List Pending) :
      ((({} : Encoder).advance state completed).advance .instruction last).entries.toList =
        place 0 (completed ++ last) := by
    rw [advance_advance]
    rfl
  rw [entriesOf, Outcome.bind_eq_ok_iff]
  constructor
  · rintro ⟨final, read, encoded⟩
    obtain ⟨state, completed, moves, rfl⟩ := (foldlM_step_eq_ok_iff ..).mp read
    split at encoded
    · next empty =>
        cases encoded
        rw [List.getLast?_eq_none_iff] at empty
        subst empty
        cases moves
        exact ⟨_, [], [], .nil _, .between, rfl⟩
    · obtain ⟨last, stops, rfl⟩ := (finish_eq_ok_iff ..).mp encoded
      exact ⟨state, completed, last, moves, stops, placed ..⟩
  · rintro ⟨state, completed, last, moves, stops, rfl⟩
    refine ⟨_, (foldlM_step_eq_ok_iff ..).mpr ⟨state, completed, moves, rfl⟩, ?_⟩
    split
    · next empty =>
        rw [List.getLast?_eq_none_iff] at empty
        subst empty
        cases moves
        cases stops
        rfl
    · exact (finish_eq_ok_iff ..).mpr ⟨last, stops, (placed ..).symm⟩

/-- Encoding fails as soon as a token cannot be read behind those before it. -/
theorem entriesOf_of_step_error
    {addresses : Table Int}
    {front : List Token}
    {token : Token}
    {state : State}
    {completed : List Pending}
    {failure : Failure}
    (moves : Moves addresses .instruction front state completed)
    (failed : ∀ encoder : Encoder, encoder.state = state →
      step addresses encoder token = .error failure)
    (back : List Token) :
    entriesOf addresses (front ++ token :: back) = .error failure := by
  have read := (foldlM_step_eq_ok_iff addresses {} _ front).mpr ⟨state, completed, moves, rfl⟩
  rw [entriesOf, List.foldlM_append, read]
  change ((token :: back).foldlM (step addresses) _ >>= _) = _
  rw [List.foldlM_cons, failed _ rfl]
  rfl

/-! ## Operands and their kinds -/

/-- An instruction of the machine with operands that suit some kinds, in order. -/
structure Pending.Holds
    (pending : Pending)
    (kinds : List OperandKind) : Prop where
  listed : pending.instruction ∈ Instruction.all
  suited : List.Forall₂ Suits kinds pending.operands

/-- The operands that have been read suit the first kinds of the instruction, and the other kinds
are left. A separator stands behind an operand, unless the instruction takes none. -/
def State.IsFitting : State → Prop
  | .instruction => True
  | .operand pending kind later =>
      ∃ taken, pending.instruction.operands = taken ++ kind :: later ∧ pending.Holds taken
  | .separator pending later =>
      ∃ taken, pending.instruction.operands = taken ++ later ∧ pending.Holds taken ∧
        (taken = [] → later = [])

section

variable {addresses : Table Int} {first second : State} {token : Token} {tokens : List Token}
  {completed : List Pending}

theorem Move.isFitting
    (move : Move addresses first token second completed)
    (fitting : first.IsFitting) :
    second.IsFitting := by
  cases move with
  | skip | close => trivial
  | beginPlain _ found plain =>
      have listed := ((Instruction.ofMnemonic?_eq_some_iff ..).mp found).1
      exact ⟨[], plain, ⟨listed, .nil⟩, fun _ => rfl⟩
  | begin _ found operands =>
      have listed := ((Instruction.ofMnemonic?_eq_some_iff ..).mp found).1
      exact ⟨[], operands, ⟨listed, .nil⟩⟩
  | @operand _ _ kind _ _ _ suits =>
      obtain ⟨taken, operands, listed, suited⟩ := fitting
      refine ⟨taken ++ [kind], by simp [operands], ⟨listed, ?_⟩, by simp⟩
      exact List.rel_append suited (.cons suits .nil)
  | comma =>
      obtain ⟨taken, operands, holds, _⟩ := fitting
      exact ⟨taken, operands, holds⟩

/-- An instruction is completed with all its operands. -/
theorem Move.holds
    (move : Move addresses first token second completed)
    (fitting : first.IsFitting) :
    ∀ pending ∈ completed, pending.Holds pending.instruction.operands := by
  cases move with
  | skip | beginPlain | begin | operand | comma => simp
  | close =>
      obtain ⟨taken, operands, holds, _⟩ := fitting
      rw [List.forall_mem_singleton, operands, List.append_nil]
      exact holds

theorem Moves.isFitting_and_holds
    (moves : Moves addresses first tokens second completed)
    (fitting : first.IsFitting) :
    second.IsFitting ∧ ∀ pending ∈ completed, pending.Holds pending.instruction.operands := by
  induction moves with
  | nil => exact ⟨fitting, by simp⟩
  | cons move _ hypothesis =>
      obtain ⟨reached, later⟩ := hypothesis (move.isFitting fitting)
      rw [List.forall_mem_append]
      exact ⟨reached, move.holds fitting, later⟩

end

end Encoder
end WordAsm
