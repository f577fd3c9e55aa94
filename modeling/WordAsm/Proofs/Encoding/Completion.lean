import WordAsm.Proofs.Encoding.Addresses
import WordAsm.Proofs.Encoding.Failures

/-!
# Code that can be completed

From every state of the encoder there is a way to the end of an instruction, so tokens can be
completed to code exactly when there are moves for them. A token without a move is therefore the
first one behind which nothing helps, and the encoder fails there. Where there are moves for all
tokens, the encoder fails only because the last instruction lacks operands.
-/

namespace WordAsm

/-- A reported failure has the cause and the place that it was made with. -/
theorem Failure.fault_of_located
    {location : Location}
    {cause : Cause}
    {fault : Fault}
    (reported : located location cause = .program fault) :
    fault.cause = cause ∧ fault.location = some location := by
  rw [located, ofFault] at reported
  split at reported
  · cases reported
    exact ⟨rfl, rfl⟩
  · cases reported

/-- Steps in a row fail at a first element, behind a front on which they succeed. -/
theorem Outcome.exists_of_foldlM_eq_error
    {ε α β : Type}
    {step : β → α → Except ε β}
    {values : List α}
    {state : β}
    {failure : ε}
    (failed : values.foldlM step state = .error failure) :
    ∃ front value back middle, values = front ++ value :: back ∧
      front.foldlM step state = .ok middle ∧ step middle value = .error failure := by
  induction values generalizing state with
  | nil => cases failed
  | cons value values hypothesis =>
      rw [List.foldlM_cons] at failed
      obtain here | ⟨next, stepped, later⟩ := bind_eq_error_iff.mp failed
      · exact ⟨[], value, values, state, rfl, rfl, here⟩
      · obtain ⟨front, last, back, middle, rfl, read, stuck⟩ := hypothesis later
        refine ⟨value :: front, last, back, middle, rfl, ?_, stuck⟩
        rw [List.foldlM_cons, stepped]
        exact read

namespace Encoder

/-! ## Ways to the end of an instruction -/

/-- Tokens that the encoder accepts if suitable tokens follow them. -/
def Completable
    (addresses : Table Int)
    (tokens : List Token) : Prop :=
  ∃ later words, encode addresses (tokens ++ later) = .ok words

/-- The address of the first register suits as an operand of every kind. -/
theorem exists_operands
    (addresses : Table Int)
    (kinds : List OperandKind) :
    ∃ tokens words, Operands addresses kinds tokens words := by
  have denotes : Denotes addresses (.number 32768) 32768 := .number 32768
  have suits (kind : OperandKind) : Suits kind 32768 := fun _ => by decide
  induction kinds with
  | nil => exact ⟨[], [], .none⟩
  | cons kind later hypothesis =>
      cases later with
      | nil => exact ⟨[⟨.number 32768, { line := 1 }⟩], [32768], .last denotes (suits kind)⟩
      | cons next later =>
          obtain ⟨tokens, words, operands⟩ := hypothesis
          exact ⟨⟨.number 32768, { line := 1 }⟩ :: ⟨.comma, { line := 1 }⟩ :: tokens,
            32768 :: words, .more denotes (suits kind) rfl operands⟩

/-- Behind every state there are tokens that lead to where the encoder may stop. -/
theorem State.exists_moves
    (addresses : Table Int)
    (state : State) :
    ∃ tokens final completed last, Moves addresses state tokens final completed ∧
      Stops final last := by
  cases state with
  | instruction => exact ⟨[], _, [], [], .nil _, .between⟩
  | operand pending kind later =>
      obtain ⟨tokens, words, operands⟩ := exists_operands addresses (kind :: later)
      exact ⟨tokens, _, [], _, operands.moves pending, .behind _⟩
  | separator pending left =>
      cases left with
      | nil => exact ⟨[], _, [], _, .nil _, .behind pending⟩
      | cons kind later =>
          obtain ⟨tokens, words, operands⟩ := exists_operands addresses (kind :: later)
          exact ⟨⟨.comma, { line := 1 }⟩ :: tokens, _, [], _,
            .cons (.comma rfl) (operands.moves pending), .behind _⟩

/-- Tokens can be completed exactly when there are moves for them. -/
theorem completable_iff
    (addresses : Table Int)
    (tokens : List Token) :
    Completable addresses tokens ↔
      ∃ state completed, Moves addresses .instruction tokens state completed := by
  constructor
  · rintro ⟨later, words, encoded⟩
    obtain ⟨entries, read, _⟩ := Outcome.map_eq_ok_iff.mp encoded
    obtain ⟨final, completed, last, moves, _⟩ := (entriesOf_eq_ok_iff ..).mp read
    obtain ⟨state, earlier, _, before, _⟩ := moves.exists_of_append
    exact ⟨state, earlier, before⟩
  · rintro ⟨state, earlier, before⟩
    obtain ⟨later, final, completed, last, behind, stops⟩ := state.exists_moves addresses
    have read := (entriesOf_eq_ok_iff addresses (tokens ++ later) _).mpr
      ⟨final, _, last, before.append behind, stops, rfl⟩
    exact ⟨later, _, Outcome.map_eq_ok_iff.mpr ⟨_, read, rfl⟩⟩

/-- What stands before tokens that can be completed can be completed too. -/
theorem Completable.of_isPrefix
    {addresses : Table Int}
    {front tokens : List Token}
    (completable : Completable addresses tokens)
    (leading : front <+: tokens) :
    Completable addresses front := by
  obtain ⟨back, rfl⟩ := leading
  obtain ⟨later, words, encoded⟩ := completable
  exact ⟨back ++ later, words, List.append_assoc front back later ▸ encoded⟩

/-- A token without a move behind tokens with moves cannot be completed. -/
theorem not_completable_of_step
    {addresses : Table Int}
    {encoder : Encoder}
    {front : List Token}
    {token : Token}
    {failure : Failure}
    (read : front.foldlM (step addresses) {} = .ok encoder)
    (stuck : step addresses encoder token = .error failure) :
    ¬ Completable addresses (front ++ [token]) := by
  intro completable
  obtain ⟨state, completed, moves⟩ := (completable_iff ..).mp completable
  have succeeded := (foldlM_step_eq_ok_iff addresses {} _ (front ++ [token])).mpr
    ⟨state, completed, moves, rfl⟩
  rw [List.foldlM_append, read] at succeeded
  change [token].foldlM (step addresses) encoder = _ at succeeded
  rw [List.foldlM_cons, stuck] at succeeded
  cases succeeded

/-! ## What has been read of an instruction -/

/-- Operands for some kinds with a comma behind each of them. -/
inductive Awaiting (addresses : Table Int) : List OperandKind → List Token → List Int → Prop
  | first :
      Awaiting addresses [] [] []
  | next {kinds : List OperandKind} {kind : OperandKind} {tokens : List Token}
      {token comma : Token} {words : List Int} {word : Int} :
      Awaiting addresses kinds tokens words →
      Denotes addresses token.content word →
      Suits kind word →
      comma.content = .comma →
      Awaiting addresses (kinds ++ [kind]) (tokens ++ [token, comma]) (words ++ [word])

/-- Operands for some kinds with commas between them, the last of which has just been read. -/
inductive Behind (addresses : Table Int) : List OperandKind → List Token → List Int → Prop
  | operand {kinds : List OperandKind} {kind : OperandKind} {tokens : List Token}
      {token : Token} {words : List Int} {word : Int} :
      Awaiting addresses kinds tokens words →
      Denotes addresses token.content word →
      Suits kind word →
      Behind addresses (kinds ++ [kind]) (tokens ++ [token]) (words ++ [word])

/-- The operands that have been read, with or without a comma behind the last one. -/
def SoFar
    (addresses : Table Int)
    (kinds : List OperandKind)
    (tokens : List Token)
    (words : List Int) : Prop :=
  Awaiting addresses kinds tokens words ∨ Behind addresses kinds tokens words

theorem Behind.comma
    {addresses : Table Int}
    {kinds : List OperandKind}
    {tokens : List Token}
    {token : Token}
    {words : List Int}
    (behind : Behind addresses kinds tokens words)
    (content : token.content = .comma) :
    Awaiting addresses kinds (tokens ++ [token]) words := by
  cases behind with
  | operand awaiting denotes suits =>
      rw [List.append_assoc]
      exact .next awaiting denotes suits content

theorem Awaiting.length_eq
    {addresses : Table Int}
    {kinds : List OperandKind}
    {tokens : List Token}
    {words : List Int}
    (awaiting : Awaiting addresses kinds tokens words) :
    words.length = kinds.length := by
  induction awaiting with
  | first => rfl
  | next _ _ _ _ hypothesis => simp [hypothesis]

theorem SoFar.length_eq
    {addresses : Table Int}
    {kinds : List OperandKind}
    {tokens : List Token}
    {words : List Int}
    (soFar : SoFar addresses kinds tokens words) :
    words.length = kinds.length := by
  rcases soFar with awaiting | ⟨awaiting, _, _⟩
  · exact awaiting.length_eq
  · simp [awaiting.length_eq]

/-- Tokens that end in a part of an instruction: behind its mnemonic stand operands for the first
kinds of its signature, in a given form, and operands of the other kinds are left. -/
def EndsIn
    (form : List OperandKind → List Token → List Int → Prop)
    (tokens : List Token)
    (pending : Pending)
    (left : List OperandKind) : Prop :=
  ∃ earlier opcode read name taken, tokens = earlier ++ opcode :: read ∧
    opcode.content = .mnemonic name ∧
    Instruction.ofMnemonic? name = some pending.instruction ∧
    pending.instruction.operands = taken ++ left ∧
    form taken read pending.operands

theorem EndsIn.mono
    {first second : List OperandKind → List Token → List Int → Prop}
    {tokens : List Token}
    {pending : Pending}
    {left : List OperandKind}
    (ends : EndsIn first tokens pending left)
    (implied : ∀ taken read words, first taken read words → second taken read words) :
    EndsIn second tokens pending left := by
  obtain ⟨earlier, opcode, read, name, taken, split, content, found, signature, held⟩ := ends
  exact ⟨earlier, opcode, read, name, taken, split, content, found, signature,
    implied taken read _ held⟩

/-- What a state says about the tokens before it, if operands are left. -/
def State.Recalls
    (addresses : Table Int) : State → List Token → Prop
  | .operand pending kind later, tokens =>
      EndsIn (Awaiting addresses) tokens pending (kind :: later)
  | .separator pending (kind :: later), tokens =>
      EndsIn (Behind addresses) tokens pending (kind :: later)
  | .instruction, _ | .separator _ [], _ => True

theorem Move.recalls
    {addresses : Table Int}
    {first second : State}
    {token : Token}
    {completed : List Pending}
    {tokens : List Token}
    (move : Move addresses first token second completed)
    (recalls : first.Recalls addresses tokens) :
    second.Recalls addresses (tokens ++ [token]) := by
  cases move with
  | skip | beginPlain | close => trivial
  | @begin _ name _ _ _ content found operands =>
      exact ⟨tokens, token, [], name, [], rfl, content, found, operands, .first⟩
  | @operand _ pending kind later word denotes suits =>
      cases later with
      | nil => trivial
      | cons next later =>
          obtain ⟨earlier, opcode, read, name, taken, rfl, content, found, signature, awaiting⟩ :=
            recalls
          exact ⟨earlier, opcode, read ++ [token], name, taken ++ [kind], by simp, content, found,
            by simpa using signature, .operand awaiting denotes suits⟩
  | comma content =>
      obtain ⟨earlier, opcode, read, name, taken, rfl, opens, found, signature, behind⟩ := recalls
      exact ⟨earlier, opcode, read ++ [token], name, taken, by simp, opens, found, signature,
        behind.comma content⟩

/-- The state behind moves says what has been read. -/
theorem Moves.recalls
    {addresses : Table Int}
    {first final : State}
    {tokens before : List Token}
    {completed : List Pending}
    (moves : Moves addresses first tokens final completed)
    (recalls : first.Recalls addresses before) :
    final.Recalls addresses (before ++ tokens) := by
  induction moves generalizing before with
  | nil => rwa [List.append_nil]
  | cons move _ hypothesis =>
      rw [List.append_cons]
      exact hypothesis (move.recalls recalls)

/-! ## Where the encoder fails -/

/-- The instruction that lacks operands in a state. -/
inductive Lacks : State → Pending → Prop
  | operand {pending : Pending} {kind : OperandKind} {later : List OperandKind} :
      Lacks (.operand pending kind later) pending
  | separator {pending : Pending} {kind : OperandKind} {later : List OperandKind} :
      Lacks (.separator pending (kind :: later)) pending

/-- Where operands are lacking, fewer operands than the instruction takes have been read. -/
theorem Lacks.exists_endsIn
    {addresses : Table Int}
    {state : State}
    {pending : Pending}
    {tokens : List Token}
    (lacks : Lacks state pending)
    (recalls : state.Recalls addresses tokens) :
    ∃ kind later, EndsIn (SoFar addresses) tokens pending (kind :: later) := by
  cases lacks with
  | operand => exact ⟨_, _, recalls.mono fun _ _ _ => .inl⟩
  | separator => exact ⟨_, _, recalls.mono fun _ _ _ => .inr⟩

/-- An operand that cannot be read is the end of a line, or at fault itself. -/
theorem cases_of_readOperand
    {addresses : Table Int}
    {pending : Pending}
    {kind : OperandKind}
    {later : List OperandKind}
    {token : Token}
    {failure : Failure}
    (stuck : readOperand addresses pending kind later token = .error failure) :
    (token.content = .lineEnd ∧ failure = pending.tooFew token.location) ∨
      ∃ cause, failure = .located token.location cause ∧
        ∀ mnemonic expected given, cause ≠ .tooFewOperands mnemonic expected given := by
  obtain failed | ⟨word, _, failed⟩ := Outcome.bind_eq_error_iff.mp stuck
  · unfold operandWord at failed
    split at failed
    · next content =>
        cases failed
        exact .inl ⟨content, rfl⟩
    · cases failed
    · split at failed
      · cases failed
      · cases failed
        exact .inr ⟨_, rfl, by simp⟩
    · cases failed
      exact .inr ⟨_, rfl, by simp⟩
  · split at failed
    · cases failed
    · cases failed
      exact .inr ⟨_, rfl, by simp⟩

/-- A token that cannot be read is the end of a line where operands are lacking, or at fault
itself. -/
theorem cases_of_step
    {addresses : Table Int}
    {encoder : Encoder}
    {token : Token}
    {failure : Failure}
    (stuck : step addresses encoder token = .error failure) :
    (∃ pending, Lacks encoder.state pending ∧ token.content = .lineEnd ∧
        failure = pending.tooFew token.location) ∨
      ∃ cause, failure = .located token.location cause ∧
        ∀ mnemonic expected given, cause ≠ .tooFewOperands mnemonic expected given := by
  unfold step at stuck
  split at stuck
  · split at stuck
    · cases stuck
    · cases stuck
    · obtain failed | ⟨_, _, failed⟩ := Outcome.bind_eq_error_iff.mp stuck
      · unfold beginInstruction at failed
        split at failed
        · cases failed
          exact .inr ⟨_, rfl, by simp⟩
        · dsimp only at failed
          split at failed <;> cases failed
      · cases failed
    · cases stuck
      exact .inr ⟨_, rfl, by simp⟩
  · next pending kind later expected =>
      obtain failed | ⟨_, _, failed⟩ := Outcome.bind_eq_error_iff.mp stuck
      · refine (cases_of_readOperand failed).imp_left ?_
        rintro ⟨content, rfl⟩
        exact ⟨pending, expected ▸ .operand, content, rfl⟩
      · cases failed
  · split at stuck
    · cases stuck
    · cases stuck
      exact .inr ⟨_, rfl, by simp⟩
    · cases stuck
      exact .inr ⟨_, rfl, by simp⟩
  · next pending kind later expected =>
      split at stuck
      · next content =>
          cases stuck
          exact .inl ⟨pending, expected ▸ .separator, content, rfl⟩
      · cases stuck
      · cases stuck
        exact .inr ⟨_, rfl, by simp⟩

/-- The end of the tokens is at fault where operands are lacking. -/
theorem exists_lacks_of_finish
    {encoder : Encoder}
    {last : Location}
    {failure : Failure}
    (failed : encoder.finish last = .error failure) :
    ∃ pending, Lacks encoder.state pending ∧ failure = pending.tooFew last := by
  unfold finish at failed
  split at failed
  · cases failed
  · cases failed
  · next pending _ _ expected =>
      cases failed
      exact ⟨pending, expected ▸ .operand, rfl⟩
  · next pending _ _ expected =>
      cases failed
      exact ⟨pending, expected ▸ .separator, rfl⟩

/-- Encoding fails at a token that cannot be read, or behind all tokens. -/
theorem cases_of_entriesOf
    {addresses : Table Int}
    {tokens : List Token}
    {failure : Failure}
    (failed : entriesOf addresses tokens = .error failure) :
    (∃ front token back encoder, tokens = front ++ token :: back ∧
        front.foldlM (step addresses) {} = .ok encoder ∧
        step addresses encoder token = .error failure) ∨
      ∃ front last encoder, tokens = front ++ [last] ∧
        tokens.foldlM (step addresses) {} = .ok encoder ∧
        encoder.finish last.location = .error failure := by
  obtain stuck | ⟨encoder, read, unfinished⟩ := Outcome.bind_eq_error_iff.mp failed
  · exact .inl (Outcome.exists_of_foldlM_eq_error stuck)
  · split at unfinished
    · cases unfinished
    · next last ending =>
        obtain ⟨front, rfl⟩ := List.getLast?_eq_some_iff.mp ending
        exact .inr ⟨front, last, encoder, rfl, read, unfinished⟩

/-- The first place where tokens can no longer be completed: behind a token, but not before. -/
structure IsDeadEnd
    (addresses : Table Int)
    (tokens front : List Token)
    (token : Token) : Prop where
  leading : front ++ [token] <+: tokens
  incompletable : ¬ Completable addresses (front ++ [token])
  shortest : ∀ other, other <+: tokens → ¬ Completable addresses other →
    (front ++ [token]).length ≤ other.length

/-- Where the encoder has read a front, what cannot be completed is longer. -/
theorem isDeadEnd_of_step
    {addresses : Table Int}
    {encoder : Encoder}
    {front back : List Token}
    {token : Token}
    {failure : Failure}
    (read : front.foldlM (step addresses) {} = .ok encoder)
    (stuck : step addresses encoder token = .error failure) :
    IsDeadEnd addresses (front ++ token :: back) front token where
  leading := ⟨back, by simp⟩
  incompletable := not_completable_of_step read stuck
  shortest other leading incompletable := by
    by_contra shorter
    rw [List.length_append, List.length_singleton, Nat.not_le, Nat.lt_succ_iff] at shorter
    have within := List.prefix_of_prefix_length_le leading (List.prefix_append ..) shorter
    obtain ⟨state, completed, moves, _⟩ := (foldlM_step_eq_ok_iff ..).mp read
    exact incompletable (((completable_iff ..).mpr ⟨state, completed, moves⟩).of_isPrefix within)

/-- Tokens that end in an instruction with too few operands: its mnemonic, the number of operands
that it takes, and the smaller number of those that have been read. -/
def EndsShort
    (addresses : Table Int)
    (tokens : List Token)
    (mnemonic : String)
    (expected given : Int) : Prop :=
  ∃ pending left, EndsIn (SoFar addresses) tokens pending left ∧
    mnemonic = pending.instruction.mnemonic ∧
    expected = pending.instruction.operands.length ∧
    given = pending.operands.length ∧
    given < expected

theorem Lacks.endsShort
    {addresses : Table Int}
    {encoder : Encoder}
    {tokens : List Token}
    {pending : Pending}
    (lacks : Lacks encoder.state pending)
    (read : tokens.foldlM (step addresses) {} = .ok encoder) :
    EndsShort addresses tokens pending.instruction.mnemonic
      pending.instruction.operands.length pending.operands.length := by
  obtain ⟨state, completed, moves, rfl⟩ := (foldlM_step_eq_ok_iff ..).mp read
  have recalls : state.Recalls addresses ([] ++ tokens) := moves.recalls trivial
  obtain ⟨kind, later, ends⟩ := lacks.exists_endsIn recalls
  refine ⟨pending, kind :: later, ends, rfl, rfl, rfl, ?_⟩
  obtain ⟨_, _, _, _, taken, _, _, _, signature, soFar⟩ := ends
  rw [soFar.length_eq, signature, List.length_append, List.length_cons]
  omega

end Encoder

open Encoder

/-- A fault of the encoder stands at the first token behind which the tokens cannot be completed.
If all of them can be completed, the last instruction has too few operands and the fault stands at
the last token. An instruction is said to have too few operands exactly with the number it takes
and the smaller number that has been read where its line or the code ends. -/
theorem encode_fails_earliest
    {addresses : Table Int}
    {tokens : List Token}
    {fault : Fault}
    (failed : encode addresses tokens = .error (.program fault)) :
    ((∃ front, front <+: tokens ∧ ¬ Completable addresses front) →
      ∃ front token, IsDeadEnd addresses tokens front token ∧
        fault.location = some token.location) ∧
    ((∀ front, front <+: tokens → Completable addresses front) →
      fault.cause.category = .tooFewOperands ∧
        ∃ last, tokens.getLast? = some last ∧ fault.location = some last.location) ∧
    ∀ mnemonic expected given, fault.cause = .tooFewOperands mnemonic expected given →
      ∃ front back, tokens = front ++ back ∧
        EndsShort addresses front mnemonic expected given ∧
        (back = [] ∨ ∃ lineEnd rest, back = lineEnd :: rest ∧ lineEnd.content = .lineEnd ∧
          fault.location = some lineEnd.location) := by
  have failed := Outcome.map_eq_error_iff.mp failed
  obtain ⟨front, token, back, encoder, rfl, read, stuck⟩ |
    ⟨front, last, encoder, rfl, read, unfinished⟩ := cases_of_entriesOf failed
  · have deadEnd : IsDeadEnd addresses (front ++ token :: back) front token :=
      isDeadEnd_of_step read stuck
    refine ⟨fun _ => ⟨front, token, deadEnd, ?_⟩,
      fun completable => absurd (completable _ deadEnd.leading) deadEnd.incompletable, ?_⟩
    · obtain ⟨pending, _, _, reported⟩ | ⟨cause, reported, _⟩ := cases_of_step stuck
      · exact (Failure.fault_of_located reported.symm).2
      · exact (Failure.fault_of_located reported.symm).2
    · intro mnemonic expected given tooFew
      obtain ⟨pending, lacks, content, reported⟩ | ⟨cause, reported, other⟩ := cases_of_step stuck
      · obtain ⟨same, place⟩ := Failure.fault_of_located reported.symm
        cases tooFew.symm.trans same
        exact ⟨front, token :: back, rfl, lacks.endsShort read,
          .inr ⟨token, back, rfl, content, place⟩⟩
      · obtain ⟨same, _⟩ := Failure.fault_of_located reported.symm
        exact absurd (same.symm.trans tooFew) (other _ _ _)
  · obtain ⟨pending, lacks, reported⟩ := exists_lacks_of_finish unfinished
    obtain ⟨same, place⟩ := Failure.fault_of_located reported.symm
    have completable : Completable addresses (front ++ [last]) := by
      obtain ⟨state, completed, moves, _⟩ := (foldlM_step_eq_ok_iff ..).mp read
      exact (completable_iff ..).mpr ⟨state, completed, moves⟩
    refine ⟨?_, fun _ => ⟨by rw [same]; rfl, last, List.getLast?_concat, place⟩, ?_⟩
    · rintro ⟨other, leading, incompletable⟩
      exact absurd (completable.of_isPrefix leading) incompletable
    · intro mnemonic expected given tooFew
      cases tooFew.symm.trans same
      exact ⟨front ++ [last], [], (List.append_nil _).symm, lacks.endsShort read, .inl rfl⟩

/-- The line of an addition ends behind the comma after its first operand. -/
def openAddition : List Token :=
  [⟨.mnemonic "add", { line := 1, column := 1 }⟩,
    ⟨.number 32768, { line := 1, column := 5 }⟩,
    ⟨.comma, { line := 1, column := 6 }⟩,
    ⟨.lineEnd, { line := 1, column := 7 }⟩,
    ⟨.mnemonic "halt", { line := 2, column := 1 }⟩]

theorem encode_fails_earliest_openAddition :
    encode {} openAddition = .error (.program
        { cause := .tooFewOperands "ADD" 3 1, location := some { line := 1, column := 7 } }) ∧
      (∃ front token, IsDeadEnd {} openAddition front token ∧
        some { line := 1, column := 7 } = some token.location) ∧
      ∃ front back, openAddition = front ++ back ∧ EndsShort {} front "ADD" 3 1 ∧
        (back = [] ∨ ∃ lineEnd rest, back = lineEnd :: rest ∧ lineEnd.content = .lineEnd ∧
          some { line := 1, column := 7 } = some lineEnd.location) := by
  have failed : encode {} openAddition = .error (.program
      { cause := .tooFewOperands "ADD" 3 1, location := some { line := 1, column := 7 } }) := by
    decide
  have stuck : ¬ Completable {}
      (openAddition.take 3 ++ [⟨.lineEnd, { line := 1, column := 7 }⟩]) :=
    not_completable_of_step rfl rfl
  obtain ⟨earliest, _, short⟩ := encode_fails_earliest failed
  exact ⟨failed, earliest ⟨_, List.take_prefix 4 openAddition, stuck⟩, short "ADD" 3 1 rfl⟩

end WordAsm
