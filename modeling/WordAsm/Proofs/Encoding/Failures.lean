import WordAsm.Proofs.Encoding.Moves
import WordAsm.Proofs.Failure

/-!
# Where the encoder fails

The encoder fails at the first token for which there is no move, or at the end of the tokens if
an instruction lacks operands. An instruction never has more operands than it takes, so these
failures are reported unless a message needs the number that a token stands for.
-/

namespace WordAsm
namespace Encoder

open Outcome (ReportedUnless)

/-! ## Operands that are read and operands that are left -/

/-- The operands read and those left are together the operands of an instruction of the machine. -/
def State.IsCounted : State → Prop
  | .instruction => True
  | .operand pending _ later =>
      pending.instruction ∈ Instruction.all ∧
        pending.operands.length + (later.length + 1) = pending.instruction.operands.length
  | .separator pending later =>
      pending.instruction ∈ Instruction.all ∧
        pending.operands.length + later.length = pending.instruction.operands.length

/-- Operands that suit their kinds are as many. -/
theorem State.IsFitting.isCounted
    {state : State}
    (fitting : state.IsFitting) :
    state.IsCounted := by
  cases state with
  | instruction => trivial
  | operand =>
      obtain ⟨taken, operands, listed, suited⟩ := fitting
      exact ⟨listed, by rw [operands, ← suited.length_eq, List.length_append, List.length_cons]⟩
  | separator =>
      obtain ⟨taken, operands, ⟨listed, suited⟩, _⟩ := fitting
      exact ⟨listed, by rw [operands, ← suited.length_eq, List.length_append]⟩

/-- The numbers of operands of an instruction can be written. -/
theorem isReport_tooFew
    {pending : Pending}
    (listed : pending.instruction ∈ Instruction.all)
    (within : pending.operands.length ≤ pending.instruction.operands.length)
    (location : Location) :
    (pending.tooFew location).IsReport := by
  have short : ∀ instruction ∈ Instruction.all, instruction.operands.length ≤ 3 := by decide
  have bound := short pending.instruction listed
  rw [Pending.tooFew, Failure.located]
  apply Failure.isReport_ofFault
  rw [Cause.isWritable, Text.isWritable_of_word (by omega) (by omega),
    Text.isWritable_of_word (by omega) (by omega)]
  rfl

/-! ## Single tokens -/

/-- When a token stands for a number that gets in the way: where a register is expected, or where
no operand is. -/
def Unwritable
    (addresses : Table Int)
    (state : State)
    (content : Token.Content) : Prop :=
  match state with
  | .operand _ kind _ =>
      kind = .register ∧ ∃ word, Denotes addresses content word ∧ Text.isWritable word = false
  | .instruction | .separator _ _ => content.isWritable = false

theorem reportedUnless_beginInstruction
    (name : String)
    (location : Location) :
    ReportedUnless (beginInstruction name location) False := by
  unfold beginInstruction
  split
  · exact ReportedUnless.ofWritable rfl
  · dsimp only
    split
    · exact ReportedUnless.ok _
    · exact ReportedUnless.ok _

theorem reportedUnless_operandWord
    (addresses : Table Int)
    {pending : Pending}
    (listed : pending.instruction ∈ Instruction.all)
    (within : pending.operands.length ≤ pending.instruction.operands.length)
    (token : Token) :
    ReportedUnless (operandWord addresses pending token) False := by
  unfold operandWord
  split
  · exact ReportedUnless.ofReport (isReport_tooFew listed within _)
  · exact ReportedUnless.ok _
  · split
    · exact ReportedUnless.ok _
    · exact ReportedUnless.ofWritable rfl
  · next number _ =>
      refine ReportedUnless.ofWritable (eq_true_of_ne_false fun unwritable => ?_)
      obtain ⟨value, content, _⟩ := token.content.exists_number_of_isWritable unwritable
      exact number value content

/-- An operand that does not fit is named by the word that it stands for. -/
theorem reportedUnless_readOperand
    (addresses : Table Int)
    {pending : Pending}
    (listed : pending.instruction ∈ Instruction.all)
    (within : pending.operands.length ≤ pending.instruction.operands.length)
    (kind : OperandKind)
    (later : List OperandKind)
    (token : Token) :
    ReportedUnless (readOperand addresses pending kind later token)
      (Unwritable addresses (.operand pending kind later) token.content) := by
  have stage : ReportedUnless (readOperand addresses pending kind later token)
      (False ∨ ∃ word, operandWord addresses pending token = .ok word ∧
        kind = .register ∧ Text.isWritable word = false) := by
    refine (reportedUnless_operandWord addresses listed within token).bind fun word _ => ?_
    split
    · next suits =>
        refine (ReportedUnless.ok _).of_iff ⟨False.elim, ?_⟩
        rintro ⟨rfl, unwritable⟩
        have range := (Machine.isRegisterAddress_iff word).mp suits
        rw [Text.isWritable_of_word (by omega) (by omega)] at unwritable
        cases unwritable
    · next unsuited =>
        have register : kind = .register := by
          cases kind with
          | register => rfl
          | value | target => exact absurd rfl unsuited
        exact (ReportedUnless.ofFault _).of_iff (by simp [Cause.isWritable, register])
  refine stage.of_iff ?_
  simp only [operandWord_eq_ok_iff, Unwritable, false_or]
  constructor
  · rintro ⟨word, denotes, register, unwritable⟩
    exact ⟨register, word, denotes, unwritable⟩
  · rintro ⟨register, word, denotes, unwritable⟩
    exact ⟨word, denotes, register, unwritable⟩

/-- A token that cannot be read is reported, or it is a number that gets in the way. -/
theorem reportedUnless_step
    (addresses : Table Int)
    (encoder : Encoder)
    (counted : encoder.state.IsCounted)
    (token : Token) :
    ReportedUnless (step addresses encoder token)
      (Unwritable addresses encoder.state token.content) := by
  unfold step
  cases expected : encoder.state with
  | instruction =>
      dsimp only
      split
      · next content => exact (ReportedUnless.ok _).of_isWritable (by rw [content]; rfl)
      · next content => exact (ReportedUnless.ok _).of_isWritable (by rw [content]; rfl)
      · next name content =>
          have begun := reportedUnless_beginInstruction name token.location
          exact (begun.andThen fun _ => ReportedUnless.ok _).of_isWritable (by rw [content]; rfl)
      · exact ReportedUnless.ofFault _
  | operand pending kind later =>
      rw [expected] at counted
      obtain ⟨listed, length_eq⟩ := counted
      have operand := reportedUnless_readOperand addresses listed (by omega) kind later token
      exact operand.andThen fun _ => ReportedUnless.ok _
  | separator pending later =>
      rw [expected] at counted
      cases later with
      | nil =>
          dsimp only
          split
          · next content => exact (ReportedUnless.ok _).of_isWritable (by rw [content]; rfl)
          · next content =>
              exact (ReportedUnless.ofWritable rfl).of_isWritable (by rw [content]; rfl)
          · exact ReportedUnless.ofFault _
      | cons kind later =>
          dsimp only
          split
          · next content =>
              have length_eq := counted.2
              have report := isReport_tooFew counted.1 (by omega) token.location
              exact (ReportedUnless.ofReport report).of_isWritable (by rw [content]; rfl)
          · next content => exact (ReportedUnless.ok _).of_isWritable (by rw [content]; rfl)
          · exact ReportedUnless.ofFault _

/-! ## Lists of tokens -/

/-- When a number gets in the way of encoding: there are moves for the tokens before it. -/
def Blocked
    (addresses : Table Int)
    (state : State)
    (tokens : List Token) : Prop :=
  ∃ front token back middle completed, tokens = front ++ token :: back ∧
    Moves addresses state front middle completed ∧ Unwritable addresses middle token.content

theorem blocked_cons_iff
    (addresses : Table Int)
    (encoder : Encoder)
    (token : Token)
    (tokens : List Token) :
    Blocked addresses encoder.state (token :: tokens) ↔
      Unwritable addresses encoder.state token.content ∨
        ∃ next, step addresses encoder token = .ok next ∧
          Blocked addresses next.state tokens := by
  constructor
  · rintro ⟨front, other, back, middle, completed, tokens_eq, moves, unwritable⟩
    cases moves with
    | nil =>
        cases tokens_eq
        exact .inl unwritable
    | cons move moves =>
        cases tokens_eq
        exact .inr ⟨_, step_of_move move, _, other, back, middle, _, rfl, moves, unwritable⟩
  · rintro (unwritable | ⟨next, read, blocked⟩)
    · exact ⟨[], token, tokens, _, [], rfl, .nil _, unwritable⟩
    · obtain ⟨state, earlier, move, rfl⟩ := exists_move_of_step read
      obtain ⟨front, other, back, middle, completed, rfl, moves, unwritable⟩ := blocked
      exact ⟨token :: front, other, back, middle, _, rfl, .cons move moves, unwritable⟩

theorem reportedUnless_foldlM
    (addresses : Table Int)
    (encoder : Encoder)
    (fitting : encoder.state.IsFitting)
    (tokens : List Token) :
    ReportedUnless (tokens.foldlM (step addresses) encoder)
      (Blocked addresses encoder.state tokens) := by
  induction tokens generalizing encoder with
  | nil =>
      refine (ReportedUnless.ok _).of_iff ⟨False.elim, ?_⟩
      rintro ⟨front, token, back, _, _, tokens_eq, _⟩
      simp at tokens_eq
  | cons token tokens hypothesis =>
      rw [List.foldlM_cons]
      have here := reportedUnless_step addresses encoder fitting.isCounted token
      refine (here.bind fun next read => ?_).of_iff
        (blocked_cons_iff addresses encoder token tokens).symm
      obtain ⟨state, earlier, move, rfl⟩ := exists_move_of_step read
      exact hypothesis _ (move.isFitting fitting)

theorem reportedUnless_finish
    (encoder : Encoder)
    (counted : encoder.state.IsCounted)
    (last : Location) :
    ReportedUnless (encoder.finish last) False := by
  unfold finish
  cases expected : encoder.state with
  | instruction => exact ReportedUnless.ok _
  | operand pending kind later =>
      rw [expected] at counted
      have length_eq := counted.2
      exact ReportedUnless.ofReport (isReport_tooFew counted.1 (by omega) last)
  | separator pending later =>
      rw [expected] at counted
      have length_eq := counted.2
      cases later with
      | nil => exact ReportedUnless.ok _
      | cons kind later => exact ReportedUnless.ofReport (isReport_tooFew counted.1 (by omega) last)

theorem reportedUnless_entriesOf
    (addresses : Table Int)
    (tokens : List Token) :
    ReportedUnless (entriesOf addresses tokens) (Blocked addresses .instruction tokens) := by
  have stage : ReportedUnless (entriesOf addresses tokens)
      (Blocked addresses .instruction tokens ∨
        ∃ encoder, tokens.foldlM (step addresses) {} = .ok encoder ∧ False) := by
    refine (reportedUnless_foldlM addresses {} trivial tokens).bind fun encoder read => ?_
    obtain ⟨state, completed, moves, rfl⟩ := (foldlM_step_eq_ok_iff ..).mp read
    split
    · exact ReportedUnless.ok _
    · exact reportedUnless_finish _ (moves.isFitting_and_holds trivial).1.isCounted _
  exact stage.of_iff (by simp)

/-- When the address of a label gets in the way: the label stands where a register is expected. -/
def Outgrown
    (addresses : Table Int)
    (tokens : List Token) : Prop :=
  ∃ front token back pending later completed name address, tokens = front ++ token :: back ∧
    Moves addresses .instruction front (.operand pending .register later) completed ∧
    token.content = .symbol name ∧ addresses.get? name = some address ∧
    Text.isWritable address = false

/-- Where all numbers can be written, only addresses can get in the way. -/
theorem blocked_iff_outgrown
    (addresses : Table Int)
    {tokens : List Token}
    (writable : ∀ token ∈ tokens, token.content.isWritable = true) :
    Blocked addresses .instruction tokens ↔ Outgrown addresses tokens := by
  constructor
  · rintro ⟨front, token, back, middle, completed, rfl, moves, unwritable⟩
    have here := writable token (by simp)
    cases middle with
    | instruction | separator =>
        rw [Unwritable, here] at unwritable
        cases unwritable
    | operand pending kind later =>
        obtain ⟨rfl, word, denotes, held⟩ := unwritable
        generalize content : token.content = found at denotes
        cases denotes with
        | number =>
            rw [content, Token.Content.isWritable, held] at here
            cases here
        | @name name address found =>
            exact ⟨front, token, back, pending, later, completed, name, word, rfl, moves, content,
              found, held⟩
  · rintro ⟨front, token, back, pending, later, completed, name, address, rfl, moves, content,
      found, held⟩
    refine ⟨front, token, back, _, completed, rfl, moves, rfl, address, ?_, held⟩
    rw [content]
    exact .name found

end Encoder

/-- Code whose numbers can be written is generated or its failure is reported, unless the address
of a label gets in the way. -/
theorem Code.reportedUnless_generate
    {tokens : List Token}
    (writable : ∀ token ∈ tokens, token.content.isWritable = true) :
    Outcome.ReportedUnless (generate tokens)
      (Encoder.Outgrown (Address.table tokens) tokens) := by
  have encoded := Encoder.reportedUnless_entriesOf (Address.table tokens) tokens
  exact (encoded.andThen fun _ => Outcome.ReportedUnless.ok _).of_iff
    (Encoder.blocked_iff_outgrown _ writable)

end WordAsm
