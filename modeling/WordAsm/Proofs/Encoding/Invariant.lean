import WordAsm.Proofs.Encoding.Addresses

/-!
# What holds between two tokens

The encoder keeps the instruction at hand inside of what it expects next. An encoder can also keep
the two apart: what it expects, the instruction, the entry that is being filled, and nothing that
ties them together. Operand kinds are then looked up by position, and the operands that are left are
counted, with no guarantee that there is something to look up or to count.

An invariant that holds behind every token says that there always is. So no look-up fails, and both
encoders come to the same entries and the same failures.
-/

namespace WordAsm
namespace Encoder

/-! ## An encoder with its parts kept apart -/

/-- What is expected next, whatever instruction it belongs to. -/
inductive Expectation
  | instruction
  | operand
  | separator
  deriving DecidableEq

/-- An encoder part by part: what it expects, the instruction at hand and its entry, the address of
the next entry, and the finished ones. -/
structure Loose where
  expects : Expectation := .instruction
  instruction : Option Instruction := none
  entry : Option Entry := none
  address : Nat := 0
  entries : List Entry := []

namespace Loose

/-- Number of operands that an instruction lacks. -/
def left
    (instruction : Instruction)
    (entry : Entry) : Int :=
  instruction.operands.length - (entry.words.length - 1)

/-- The kind of the next operand by its position. -/
def kind?
    (instruction : Instruction)
    (entry : Entry) : Option OperandKind := do
  let read ← entry.words.tail?
  instruction.operands[read.length]?

/-- Close an entry. -/
def close
    (loose : Loose)
    (entry : Entry) : Loose where
  address := loose.address + entry.words.length
  entries := loose.entries ++ [entry]

/-- Read a token where an instruction may begin. -/
def readInstruction
    (loose : Loose)
    (token : Token) : Except Failure Loose :=
  match token.content with
  | .label _ | .lineEnd => .ok loose
  | .mnemonic name =>
      match Instruction.ofMnemonic? name with
      | none =>
          let similar := Text.closeMatches (Text.upperCase name) Instruction.mnemonics
          .error (.located token.location (.unknownOpcode name similar))
      | some instruction =>
          let words : List Int := [(instruction.opcode : Int)]
          .ok { loose with
            expects := if instruction.operands = [] then .separator else .operand
            instruction := some instruction
            entry := some ⟨loose.address, token.location.line, instruction.mnemonic, words⟩ }
  | content => .error (.located token.location (.noInstruction content))

/-- Read an operand of a kind. -/
def readOperand
    (addresses : Table Int)
    (loose : Loose)
    (instruction : Instruction)
    (entry : Entry)
    (kind : OperandKind)
    (token : Token) : Except Failure Loose := do
  let word ← operandWord addresses ⟨instruction, entry.line, entry.words.tail⟩ token
  if fits kind word then
    .ok { loose with
      expects := .separator
      entry := some { entry with words := entry.words ++ [word] } }
  else
    .error (.located token.location (.notARegister instruction.mnemonic word))

/-- Read what stands behind a mnemonic without operands, or behind an operand. -/
def readSeparator
    (loose : Loose)
    (instruction : Instruction)
    (entry : Entry)
    (token : Token) : Except Failure Loose :=
  match token.content with
  | .comma =>
      if left instruction entry = 0 then
        .error (.located token.location
          (.tooManyOperands instruction.mnemonic instruction.operands.length))
      else .ok { loose with expects := .operand }
  | .lineEnd =>
      if left instruction entry = 0 then .ok (loose.close entry)
      else .error (Pending.tooFew ⟨instruction, entry.line, entry.words.tail⟩ token.location)
  | content =>
      .error (.located token.location
        (.noSeparator instruction.mnemonic (left instruction entry ≠ 0) content))

/-- Read one token. What its reading may need is looked up first, and there is no result if that
fails. -/
def step
    (addresses : Table Int)
    (loose : Loose)
    (token : Token) : Option (Except Failure Loose) :=
  match loose.expects with
  | .instruction => some (loose.readInstruction token)
  | .operand => do
      let instruction ← loose.instruction
      let entry ← loose.entry
      let kind ← kind? instruction entry
      some (loose.readOperand addresses instruction entry kind token)
  | .separator => do
      let instruction ← loose.instruction
      let entry ← loose.entry
      some (loose.readSeparator instruction entry token)

/-- Read tokens up to the first failure. -/
def readAll
    (addresses : Table Int)
    (loose : Loose) : List Token → Option (Except Failure Loose)
  | [] => some (.ok loose)
  | token :: tokens => do
      match ← loose.step addresses token with
      | .ok next => next.readAll addresses tokens
      | .error failure => some (.error failure)

/-- The entries behind some tokens. If an instruction lacks operands, the last token is blamed. -/
def finish
    (loose : Loose)
    (tokens : List Token) : Option (Except Failure (List Entry)) :=
  if loose.expects = .instruction then some (.ok loose.entries)
  else do
    let instruction ← loose.instruction
    let entry ← loose.entry
    let last ← tokens.getLast?
    if loose.expects = .operand ∨ left instruction entry ≠ 0 then
      some (.error (Pending.tooFew ⟨instruction, entry.line, entry.words.tail⟩ last.location))
    else some (.ok (loose.close entry).entries)

/-- Encode tokens into entries. -/
def entriesOf
    (addresses : Table Int)
    (tokens : List Token) : Option (Except Failure (List Entry)) := do
  match ← readAll addresses {} tokens with
  | .ok loose => loose.finish tokens
  | .error failure => some (.error failure)

end Loose

/-- The parts of an encoder. -/
def loosen (encoder : Encoder) : Loose :=
  let part (expects : Expectation) (pending : Pending) : Loose := {
    expects
    instruction := some pending.instruction
    entry := some (pending.entry encoder.address)
    address := encoder.address
    entries := encoder.entries.toList }
  match encoder.state with
  | .instruction => { address := encoder.address, entries := encoder.entries.toList }
  | .operand pending _ _ => part .operand pending
  | .separator pending _ => part .separator pending

/-! ## Both encoders side by side -/

/-- An entry has one word for the opcode and one for every operand. -/
theorem Pending.Holds.length_entry
    {pending : Pending}
    {taken : List OperandKind}
    (holds : pending.Holds taken)
    (address : Nat) :
    (pending.entry address).words.length = taken.length + 1 := by
  rw [holds.suited.length_eq]
  rfl

/-- The operands that are left are counted right. -/
theorem Loose.left_entry
    {pending : Pending}
    {taken later : List OperandKind}
    (operands : pending.instruction.operands = taken ++ later)
    (holds : pending.Holds taken)
    (address : Nat) :
    left pending.instruction (pending.entry address) = later.length := by
  rw [left, holds.length_entry, operands, List.length_append]
  omega

/-- The kind of the next operand is found at its position. -/
theorem Loose.kind?_entry
    {pending : Pending}
    {kind : OperandKind}
    {taken later : List OperandKind}
    (operands : pending.instruction.operands = taken ++ kind :: later)
    (holds : pending.Holds taken)
    (address : Nat) :
    kind? pending.instruction (pending.entry address) = some kind := by
  change pending.instruction.operands[pending.operands.length]? = some kind
  rw [operands, ← holds.suited.length_eq]
  simp

section

variable (addresses : Table Int) (entries : Array Entry) (address : Nat) (token : Token)

/-- Where an instruction may begin, both encoders read alike. -/
theorem readInstruction_loosen :
    (loosen ⟨entries, address, .instruction⟩).readInstruction token =
      (step addresses ⟨entries, address, .instruction⟩ token).map loosen := by
  unfold Loose.readInstruction step
  cases token.content with
  | mnemonic name =>
      dsimp only
      cases found : Instruction.ofMnemonic? name with
      | none =>
          rw [beginInstruction, found]
          rfl
      | some instruction =>
          rw [beginInstruction, found]
          dsimp only
          cases operands : instruction.operands <;> rfl
  | _ => rfl

/-- An operand is read alike. -/
theorem readOperand_loosen
    (pending : Pending)
    (kind : OperandKind)
    (later : List OperandKind) :
    (loosen ⟨entries, address, .operand pending kind later⟩).readOperand addresses
        pending.instruction (pending.entry address) kind token =
      (step addresses ⟨entries, address, .operand pending kind later⟩ token).map loosen := by
  change (operandWord addresses pending token >>= _) =
    ((readOperand addresses pending kind later token >>= _) : Except Failure Encoder).map loosen
  rw [readOperand]
  cases operandWord addresses pending token with
  | error failure => rfl
  | ok word =>
      change (if fits kind word = true then _ else _) =
        ((if fits kind word = true then _ else _ : Except Failure State) >>= _).map loosen
      split <;> rfl

/-- What stands behind an operand is read alike, if the operands that are left are counted right. -/
theorem readSeparator_loosen
    {pending : Pending}
    {later : List OperandKind}
    (count : Loose.left pending.instruction (pending.entry address) = later.length) :
    (loosen ⟨entries, address, .separator pending later⟩).readSeparator
        pending.instruction (pending.entry address) token =
      (step addresses ⟨entries, address, .separator pending later⟩ token).map loosen := by
  unfold Loose.readSeparator
  cases later with
  | nil =>
      have finished : Loose.left pending.instruction (pending.entry address) = 0 := count
      rw [finished]
      unfold step
      cases token.content with
      | lineEnd => simp [Except.map, close, loosen, Loose.close, Pending.entry, Nat.add_assoc]
      | _ => rfl
  | cons kind later =>
      have lacking : Loose.left pending.instruction (pending.entry address) ≠ 0 := by
        rw [count, List.length_cons]
        omega
      unfold step
      cases token.content with
      | comma | lineEnd =>
          dsimp only
          rw [if_neg lacking]
          rfl
      | _ => simp [lacking, Except.map]

end

/-- No look-up fails where the operands fit, and the token is read alike. -/
theorem step_loosen
    (addresses : Table Int)
    {encoder : Encoder}
    (fitting : encoder.state.IsFitting)
    (token : Token) :
    encoder.loosen.step addresses token = some ((encoder.step addresses token).map loosen) := by
  obtain ⟨entries, address, state⟩ := encoder
  cases state with
  | instruction => exact congrArg some (readInstruction_loosen addresses entries address token)
  | operand pending kind later =>
      obtain ⟨taken, operands, holds⟩ := fitting
      rw [← readOperand_loosen]
      change (Loose.kind? pending.instruction (pending.entry address) >>= _) = _
      rw [Loose.kind?_entry operands holds]
      rfl
  | separator pending later =>
      obtain ⟨taken, operands, holds, _⟩ := fitting
      have count := Loose.left_entry operands holds address
      rw [← readSeparator_loosen addresses entries address token count]
      rfl

theorem readAll_loosen
    (addresses : Table Int)
    {encoder : Encoder}
    (fitting : encoder.state.IsFitting)
    (tokens : List Token) :
    encoder.loosen.readAll addresses tokens =
      some ((tokens.foldlM (step addresses) encoder).map loosen) := by
  induction tokens generalizing encoder with
  | nil => rfl
  | cons token tokens hypothesis =>
      rw [Loose.readAll, step_loosen addresses fitting, List.foldlM_cons]
      cases read : step addresses encoder token with
      | error failure => rfl
      | ok next =>
          obtain ⟨state, completed, move, rfl⟩ := exists_move_of_step read
          exact hypothesis (move.isFitting fitting)

/-- At the end of some tokens the last one is at hand. -/
theorem finish_loosen
    {encoder : Encoder}
    (fitting : encoder.state.IsFitting)
    {tokens : List Token}
    {last : Token}
    (ended : tokens.getLast? = some last) :
    encoder.loosen.finish tokens = some (encoder.finish last.location) := by
  obtain ⟨entries, address, state⟩ := encoder
  unfold Loose.finish
  rw [ended]
  cases state with
  | instruction => rfl
  | operand pending kind later => rfl
  | separator pending later =>
      obtain ⟨taken, operands, holds, _⟩ := fitting
      have count := Loose.left_entry operands holds address
      change (if Expectation.separator = .operand ∨
        Loose.left pending.instruction (pending.entry address) ≠ 0 then _ else _) = _
      cases later with
      | nil =>
          rw [if_neg (by simp [count])]
          simp [finish, close, loosen, Loose.close]
      | cons kind later =>
          rw [if_pos (.inr (by rw [count, List.length_cons]; omega))]
          rfl

/-- Both encoders come to the same entries or the same failure. -/
theorem entriesOf_loosen
    (addresses : Table Int)
    (tokens : List Token) :
    Loose.entriesOf addresses tokens = some (entriesOf addresses tokens) := by
  have read := readAll_loosen addresses (show ({} : Encoder).state.IsFitting from trivial) tokens
  change (({} : Encoder).loosen.readAll addresses tokens >>= _) = _
  rw [read, entriesOf]
  cases final : tokens.foldlM (step addresses) {} with
  | error failure => rfl
  | ok encoder =>
      obtain ⟨state, completed, moves, rfl⟩ := (foldlM_step_eq_ok_iff ..).mp final
      cases ended : tokens.getLast? with
      | none =>
          -- Without tokens no instruction is at hand, so the last one is not asked for.
          rw [List.getLast?_eq_none_iff] at ended
          subst ended
          cases moves
          rfl
      | some last => exact finish_loosen (moves.isFitting_and_holds trivial).1 ended

/-! ## The invariant -/

/-- Whether an entry is that of an instruction with all its operands: the opcode of its mnemonic and
a word for every operand, with the address of a register wherever one is needed. -/
structure IsEntryOf
    (instruction : Instruction)
    (entry : Entry) : Prop where
  named : Instruction.ofMnemonic? entry.mnemonic = some instruction
  length_eq : entry.words.length = 1 + instruction.operands.length
  opcode : entry.words.head? = some (instruction.opcode : Int)
  registers : ∀ index, instruction.operands[index]? = some .register →
    ∃ word, entry.words[index + 1]? = some word ∧ 32768 ≤ word ∧ word ≤ 32775

/-- What holds of the parts of an encoder between two tokens. -/
structure Loose.IsSound (loose : Loose) : Prop where
  /-- Between two instructions there is none at hand. -/
  between : loose.expects = .instruction → loose.instruction = none ∧ loose.entry = none
  /-- Before an operand, its position is one of the operands of the instruction at hand. -/
  before : loose.expects = .operand → ∃ instruction entry,
    loose.instruction = some instruction ∧ loose.entry = some entry ∧
    1 ≤ entry.words.length ∧ entry.words.length - 1 < instruction.operands.length
  /-- Behind an operand there are not too many, and behind a mnemonic there are none to come. -/
  behind : loose.expects = .separator → ∃ instruction entry,
    loose.instruction = some instruction ∧ loose.entry = some entry ∧
    1 ≤ entry.words.length ∧ entry.words.length ≤ 1 + instruction.operands.length ∧
    (entry.words = [(instruction.opcode : Int)] ↔ instruction.operands = [])
  /-- The address is the number of words of the finished entries. -/
  address_eq : loose.address = (Entry.allWords loose.entries).length
  /-- Finished entries are complete. -/
  finished : ∀ entry ∈ loose.entries, ∃ instruction, IsEntryOf instruction entry

theorem mem_place
    {address : Nat}
    {statements : List Pending}
    {entry : Entry}
    (listed : entry ∈ place address statements) :
    ∃ pending ∈ statements, ∃ start, entry = pending.entry start := by
  induction statements generalizing address with
  | nil => cases listed
  | cons statement statements hypothesis =>
      rw [List.exists_mem_cons_iff]
      obtain rfl | later := List.mem_cons.mp listed
      · exact .inl ⟨address, rfl⟩
      · exact .inr (hypothesis later)

/-- Operands that suit their kinds suit them position by position. -/
theorem exists_suited
    {kinds : List OperandKind}
    {words : List Int}
    (suited : List.Forall₂ Suits kinds words)
    {index : Nat}
    {kind : OperandKind}
    (found : kinds[index]? = some kind) :
    ∃ word, words[index]? = some word ∧ Suits kind word := by
  induction suited generalizing index with
  | nil => cases found
  | cons suits _ hypothesis =>
      cases index with
      | zero =>
          cases found
          exact ⟨_, rfl, suits⟩
      | succ index => exact hypothesis found

theorem Pending.Holds.isEntryOf
    {pending : Pending}
    (holds : pending.Holds pending.instruction.operands)
    (address : Nat) :
    IsEntryOf pending.instruction (pending.entry address) where
  named := by
    have capitals : ∀ instruction ∈ Instruction.all,
        instruction.mnemonic = Text.upperCase instruction.mnemonic := by decide
    exact (Instruction.ofMnemonic?_eq_some_iff ..).mpr ⟨holds.listed, capitals _ holds.listed⟩
  length_eq := by rw [holds.length_entry, Nat.add_comm]
  opcode := rfl
  registers index needed := by
    obtain ⟨word, found, suits⟩ := exists_suited holds.suited needed
    exact ⟨word, found, suits rfl⟩

/-- Only the opcode is there exactly if no operand has been read. -/
theorem Pending.Holds.words_entry_eq_singleton_iff
    {pending : Pending}
    {taken : List OperandKind}
    (holds : pending.Holds taken)
    (address : Nat) :
    (pending.entry address).words = [(pending.instruction.opcode : Int)] ↔ taken = [] := by
  rw [← List.length_eq_zero_iff, holds.suited.length_eq, List.length_eq_zero_iff]
  simp [Pending.entry]

theorem address_loosen (encoder : Encoder) :
    encoder.loosen.address = encoder.address := by
  unfold loosen
  split <;> rfl

theorem entries_loosen (encoder : Encoder) :
    encoder.loosen.entries = encoder.entries.toList := by
  unfold loosen
  split <;> rfl

/-- The parts of an encoder are sound behind all tokens that it has read. -/
theorem isSound_loosen
    {addresses : Table Int}
    {tokens : List Token}
    {encoder : Encoder}
    (read : tokens.foldlM (step addresses) {} = .ok encoder) :
    encoder.loosen.IsSound := by
  obtain ⟨state, completed, moves, rfl⟩ := (foldlM_step_eq_ok_iff ..).mp read
  obtain ⟨fitting, complete⟩ := moves.isFitting_and_holds trivial
  have entries : ((({} : Encoder).advance state completed).loosen).entries = place 0 completed :=
    entries_loosen _
  constructor
  case between =>
    intro expected
    cases state with
    | instruction => exact ⟨rfl, rfl⟩
    | operand | separator => cases expected
  case before =>
    intro expected
    cases state with
    | instruction | separator => cases expected
    | operand pending kind later =>
        obtain ⟨taken, operands, holds⟩ := fitting
        refine ⟨_, _, rfl, rfl, ?_⟩
        rw [holds.length_entry, operands, List.length_append, List.length_cons]
        omega
  case behind =>
    intro expected
    cases state with
    | instruction | operand => cases expected
    | separator pending later =>
        obtain ⟨taken, operands, holds, plain⟩ := fitting
        refine ⟨_, _, rfl, rfl, ?_, ?_, ?_⟩
        · rw [holds.length_entry]
          omega
        · rw [holds.length_entry, operands, List.length_append]
          omega
        · rw [holds.words_entry_eq_singleton_iff, operands, List.append_eq_nil_iff]
          exact (and_iff_left_of_imp plain).symm
  case address_eq =>
    rw [address_loosen, entries, allWords_place, length_wordsOf]
    exact Nat.zero_add _
  case finished =>
    rw [entries]
    intro entry listed
    obtain ⟨pending, member, start, rfl⟩ := mem_place listed
    exact ⟨_, (complete pending member).isEntryOf start⟩

/-- Behind every token that the encoder has read its parts are sound. So an encoder that looks up
the instruction at hand, its entry, the kind of an operand by position and the last of the tokens
never fails to find them, and it comes to the same parts, entries and failures. -/
theorem invariant_of_read
    (addresses : Table Int)
    (tokens : List Token) :
    (∀ encoder, tokens.foldlM (step addresses) {} = .ok encoder →
      encoder.loosen.IsSound ∧
        Loose.readAll addresses {} tokens = some (.ok encoder.loosen)) ∧
    Loose.entriesOf addresses tokens = some (entriesOf addresses tokens) := by
  refine ⟨fun encoder read => ⟨isSound_loosen read, ?_⟩, entriesOf_loosen addresses tokens⟩
  have all := readAll_loosen addresses (show ({} : Encoder).state.IsFitting from trivial) tokens
  rw [read] at all
  exact all

/-- An instruction without operands, and one whose second operand is still to come. -/
def openSetting : List Token := [
    ⟨.mnemonic "noop", { line := 1 }⟩, ⟨.lineEnd, { line := 1 }⟩, ⟨.mnemonic "set", { line := 2 }⟩,
    ⟨.number 32769, { line := 2 }⟩, ⟨.comma, { line := 2 }⟩]

theorem invariant_of_openSetting :
    let loose : Loose := {
      expects := .operand
      instruction := some ⟨"SET", 1, [.register, .value]⟩
      entry := some ⟨1, 2, "SET", [1, 32769]⟩
      address := 1
      entries := [⟨0, 1, "NOOP", [21]⟩] }
    loose.IsSound ∧ Loose.readAll {} {} openSetting = some (.ok loose) :=
  (invariant_of_read {} openSetting).1
    ⟨#[⟨0, 1, "NOOP", [21]⟩], 1, .operand ⟨⟨"SET", 1, [.register, .value]⟩, 2, [32769]⟩ .value []⟩
    rfl

end Encoder
end WordAsm
