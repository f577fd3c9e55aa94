import WordAsm.Proofs.Encoding.Moves

/-!
# The language of the encoder

Code is a sequence of labels, ends of lines and instructions. An instruction is a mnemonic and
its operands with commas between them, and the line ends behind it unless nothing follows. The
encoder accepts exactly these sequences, and its words are those of the instructions in order.
-/

namespace WordAsm
namespace Encoder

/-- Operands for some kinds with single commas between them, and the words they stand for. -/
inductive Operands (addresses : Table Int) : List OperandKind → List Token → List Int → Prop
  | none :
      Operands addresses [] [] []
  | last {kind : OperandKind} {token : Token} {word : Int} :
      Denotes addresses token.content word →
      Suits kind word →
      Operands addresses [kind] [token] [word]
  | more {kind next : OperandKind} {kinds : List OperandKind} {token comma : Token}
      {tokens : List Token} {word : Int} {words : List Int} :
      Denotes addresses token.content word →
      Suits kind word →
      comma.content = .comma →
      Operands addresses (next :: kinds) tokens words →
      Operands addresses (kind :: next :: kinds) (token :: comma :: tokens) (word :: words)

/-- An instruction: a mnemonic of the instruction set, and operands as its signature asks. -/
inductive Statement (addresses : Table Int) : List Token → Pending → Prop
  | intro {token : Token} {name : String} {instruction : Instruction} {tokens : List Token}
      {words : List Int} :
      token.content = .mnemonic name →
      instruction ∈ Instruction.all →
      instruction.mnemonic = Text.upperCase name →
      Operands addresses instruction.operands tokens words →
      Statement addresses (token :: tokens) ⟨instruction, token.location.line, words⟩

/-- Labels, ends of lines and instructions in a row, and the instructions among them. -/
inductive Statements (addresses : Table Int) : List Token → List Pending → Prop
  | nil :
      Statements addresses [] []
  | label {token : Token} {name : String} {tokens : List Token} {statements : List Pending} :
      token.content = .label name →
      Statements addresses tokens statements →
      Statements addresses (token :: tokens) statements
  | blank {token : Token} {tokens : List Token} {statements : List Pending} :
      token.content = .lineEnd →
      Statements addresses tokens statements →
      Statements addresses (token :: tokens) statements
  | line {read tokens : List Token} {token : Token} {statement : Pending}
      {statements : List Pending} :
      Statement addresses read statement →
      token.content = .lineEnd →
      Statements addresses tokens statements →
      Statements addresses (read ++ token :: tokens) (statement :: statements)
  | last {read : List Token} {statement : Pending} :
      Statement addresses read statement →
      Statements addresses read [statement]

/-- The words of instructions: each opcode and behind it the words of its operands. -/
def wordsOf (statements : List Pending) : List Int :=
  statements.flatMap fun statement => statement.instruction.opcode :: statement.operands

/-! ## What may follow in each state -/

/-- What may follow an instruction that has all its operands: nothing, or the end of the line
and more code. -/
def Ending
    (addresses : Table Int)
    (pending : Pending)
    (tokens : List Token)
    (statements : List Pending) : Prop :=
  (tokens = [] ∧ statements = [pending]) ∨
    ∃ lineEnd rest following, tokens = lineEnd :: rest ∧ lineEnd.content = .lineEnd ∧
      Statements addresses rest following ∧ statements = pending :: following

/-- What may follow an instruction that still needs operands of some kinds. -/
def OperandsThen
    (addresses : Table Int)
    (pending : Pending)
    (kinds : List OperandKind)
    (tokens : List Token)
    (statements : List Pending) : Prop :=
  ∃ read words rest, tokens = read ++ rest ∧ Operands addresses kinds read words ∧
    Ending addresses { pending with operands := pending.operands ++ words } rest statements

/-- What may follow in a state of the encoder. -/
def Remainder
    (addresses : Table Int) : State → List Token → List Pending → Prop
  | .instruction, tokens, statements => Statements addresses tokens statements
  | .operand pending kind later, tokens, statements =>
      OperandsThen addresses pending (kind :: later) tokens statements
  | .separator pending [], tokens, statements => Ending addresses pending tokens statements
  | .separator pending (kind :: later), tokens, statements =>
      ∃ comma rest, tokens = comma :: rest ∧ comma.content = .comma ∧
        OperandsThen addresses pending (kind :: later) rest statements

theorem Statement.statements
    {addresses : Table Int}
    {read tokens : List Token}
    {statement : Pending}
    {statements : List Pending}
    (leading : Statement addresses read statement)
    (ending : Ending addresses statement tokens statements) :
    Statements addresses (read ++ tokens) statements := by
  rcases ending with ⟨rfl, rfl⟩ | ⟨lineEnd, rest, following, rfl, content, more, rfl⟩
  · rw [List.append_nil]
    exact .last leading
  · exact .line leading content more

/-- An operand goes before what may follow it. -/
theorem operandsThen_cons
    {addresses : Table Int}
    {pending : Pending}
    {kind : OperandKind}
    {later : List OperandKind}
    {token : Token}
    {tokens : List Token}
    {word : Int}
    {statements : List Pending}
    (denotes : Denotes addresses token.content word)
    (suits : Suits kind word)
    (remainder : Remainder addresses
      (.separator { pending with operands := pending.operands ++ [word] } later)
      tokens statements) :
    OperandsThen addresses pending (kind :: later) (token :: tokens) statements := by
  cases later with
  | nil => exact ⟨[token], [word], tokens, rfl, .last denotes suits, remainder⟩
  | cons next later =>
      obtain ⟨comma, rest, rfl, content, read, words, behind, rfl, operands, ending⟩ := remainder
      refine ⟨token :: comma :: read, word :: words, behind, rfl,
        .more denotes suits content operands, ?_⟩
      simpa using ending

/-- A token goes before what may follow its move. -/
theorem Move.remainder
    {addresses : Table Int}
    {first second : State}
    {token : Token}
    {tokens : List Token}
    {earlier later : List Pending}
    (move : Move addresses first token second earlier)
    (remainder : Remainder addresses second tokens later) :
    Remainder addresses first (token :: tokens) (earlier ++ later) := by
  cases move with
  | skip ignored =>
      rcases ignored with content | ⟨name, content⟩
      · exact .blank content remainder
      · exact .label content remainder
  | @beginPlain _ _ instruction content found plain =>
      obtain ⟨listed, named⟩ := (Instruction.ofMnemonic?_eq_some_iff ..).mp found
      have operands : Operands addresses instruction.operands [] [] := by
        rw [plain]
        exact .none
      exact Statement.statements (.intro content listed named operands) remainder
  | begin content found kinds =>
      obtain ⟨listed, named⟩ := (Instruction.ofMnemonic?_eq_some_iff ..).mp found
      obtain ⟨read, words, rest, rfl, operands, ending⟩ := remainder
      exact Statement.statements (.intro content listed named (kinds ▸ operands)) ending
  | operand denotes suits => exact operandsThen_cons denotes suits remainder
  | comma content => exact ⟨token, tokens, rfl, content, remainder⟩
  | close content => exact .inr ⟨token, tokens, later, rfl, content, remainder, rfl⟩

theorem Stops.remainder
    {addresses : Table Int}
    {state : State}
    {last : List Pending}
    (stops : Stops state last) :
    Remainder addresses state [] last := by
  cases stops with
  | between => exact .nil
  | behind pending => exact .inl ⟨rfl, rfl⟩

/-- Moves that end where the encoder may stop read what may follow. -/
theorem Moves.remainder
    {addresses : Table Int}
    {first final : State}
    {tokens : List Token}
    {completed last : List Pending}
    (moves : Moves addresses first tokens final completed)
    (stops : Stops final last) :
    Remainder addresses first tokens (completed ++ last) := by
  induction moves with
  | nil state => exact stops.remainder
  | cons move moves hypothesis =>
      rw [List.append_assoc]
      exact move.remainder (hypothesis stops)

/-! ## Moves for code -/

theorem Moves.append
    {addresses : Table Int}
    {first second third : State}
    {front back : List Token}
    {earlier later : List Pending}
    (before : Moves addresses first front second earlier)
    (behind : Moves addresses second back third later) :
    Moves addresses first (front ++ back) third (earlier ++ later) := by
  induction before with
  | nil state => exact behind
  | cons move moves hypothesis =>
      rw [List.append_assoc]
      exact .cons move (hypothesis behind)

/-- Operands lead from the place of the first one to behind the last one. -/
theorem Operands.moves
    {addresses : Table Int}
    {kind : OperandKind}
    {later : List OperandKind}
    {tokens : List Token}
    {words : List Int}
    (operands : Operands addresses (kind :: later) tokens words)
    (pending : Pending) :
    Moves addresses (.operand pending kind later) tokens
      (.separator { pending with operands := pending.operands ++ words } []) [] := by
  generalize kinds_eq : kind :: later = kinds at operands
  induction operands generalizing kind later pending with
  | none => cases kinds_eq
  | last denotes suits =>
      cases kinds_eq
      exact .cons (.operand denotes suits) (.nil _)
  | @more _ next kinds _ _ _ word words denotes suits content operands hypothesis =>
      cases kinds_eq
      have rest := hypothesis { pending with operands := pending.operands ++ [word] } rfl
      rw [List.append_assoc] at rest
      exact .cons (.operand denotes suits) (.cons (.comma content) rest)

/-- An instruction leads from before it to behind its last operand. -/
theorem Statement.moves
    {addresses : Table Int}
    {tokens : List Token}
    {statement : Pending}
    (leading : Statement addresses tokens statement) :
    Moves addresses .instruction tokens (.separator statement []) [] := by
  cases leading with
  | @intro _ _ instruction _ _ content listed named operands =>
      have found := (Instruction.ofMnemonic?_eq_some_iff ..).mpr ⟨listed, named⟩
      generalize kinds_eq : instruction.operands = kinds at operands
      cases kinds with
      | nil =>
          cases operands
          exact .cons (.beginPlain content found kinds_eq) (.nil _)
      | cons kind later => exact .cons (.begin content found kinds_eq) (operands.moves _)

/-- Code leads to a state where the encoder may stop, with its instructions completed. -/
theorem Statements.moves
    {addresses : Table Int}
    {tokens : List Token}
    {statements : List Pending}
    (code : Statements addresses tokens statements) :
    ∃ final completed last, Moves addresses .instruction tokens final completed ∧
      Stops final last ∧ statements = completed ++ last := by
  induction code with
  | nil => exact ⟨_, [], [], .nil _, .between, rfl⟩
  | label content _ hypothesis =>
      obtain ⟨final, completed, last, moves, stops, rfl⟩ := hypothesis
      exact ⟨final, completed, last, .cons (.skip (.inr ⟨_, content⟩)) moves, stops, rfl⟩
  | blank content _ hypothesis =>
      obtain ⟨final, completed, last, moves, stops, rfl⟩ := hypothesis
      exact ⟨final, completed, last, .cons (.skip (.inl content)) moves, stops, rfl⟩
  | @line _ _ _ statement _ leading content _ hypothesis =>
      obtain ⟨final, completed, last, moves, stops, rfl⟩ := hypothesis
      exact ⟨final, statement :: completed, last,
        leading.moves.append (.cons (.close content) moves), stops, rfl⟩
  | @last _ statement leading =>
      exact ⟨_, [], [statement], leading.moves, .behind statement, rfl⟩

/-- The encoder yields entries exactly for code, one behind the other from address zero. -/
theorem entriesOf_eq_ok_iff_statements
    (addresses : Table Int)
    (tokens : List Token)
    (entries : List Entry) :
    entriesOf addresses tokens = .ok entries ↔
      ∃ statements, Statements addresses tokens statements ∧ entries = place 0 statements := by
  rw [entriesOf_eq_ok_iff]
  constructor
  · rintro ⟨final, completed, last, moves, stops, rfl⟩
    exact ⟨completed ++ last, moves.remainder stops, rfl⟩
  · rintro ⟨statements, code, rfl⟩
    obtain ⟨final, completed, last, moves, stops, rfl⟩ := code.moves
    exact ⟨final, completed, last, moves, stops, rfl⟩

theorem allWords_place
    (address : Nat)
    (statements : List Pending) :
    Entry.allWords (place address statements) = wordsOf statements := by
  induction statements generalizing address with
  | nil => rfl
  | cons statement statements hypothesis =>
      change (statement.entry address).words ++ Entry.allWords (place _ statements) = _
      rw [hypothesis]
      rfl

end Encoder

/-- A list of tokens is encoded into words exactly when it is code whose instructions have these
words. -/
theorem encode_eq_ok_iff
    (addresses : Table Int)
    (tokens : List Token)
    (words : List Int) :
    encode addresses tokens = .ok words ↔
      ∃ statements, Encoder.Statements addresses tokens statements ∧
        words = Encoder.wordsOf statements := by
  rw [encode, Outcome.map_eq_ok_iff]
  constructor
  · rintro ⟨entries, read, rfl⟩
    obtain ⟨statements, code, rfl⟩ := (Encoder.entriesOf_eq_ok_iff_statements ..).mp read
    exact ⟨statements, code, Encoder.allWords_place 0 statements⟩
  · rintro ⟨statements, code, rfl⟩
    exact ⟨Encoder.place 0 statements,
      (Encoder.entriesOf_eq_ok_iff_statements ..).mpr ⟨statements, code, rfl⟩,
      Encoder.allWords_place 0 statements⟩

end WordAsm
