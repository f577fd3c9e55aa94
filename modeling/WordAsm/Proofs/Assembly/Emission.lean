import WordAsm.Proofs.Assembly.Stages

/-!
# Where the words of a program come from

Every token of the code section that is not a label, a comma or the end of a line makes one
word of the program, in order. A mnemonic makes its opcode and every operand the word it stands
for. A word that addresses a register comes from a register, or from a label that is bound to
such an address because more than 32767 words stand before it.
-/

namespace WordAsm
namespace Encoder

/-- The word that a resolved token makes. -/
inductive Encoded (addresses : Table Int) : Token.Content → Int → Prop
  | opcode {name : String} {instruction : Instruction} :
      instruction ∈ Instruction.all →
      instruction.mnemonic = Text.upperCase name →
      Encoded addresses (.mnemonic name) instruction.opcode
  | operand {content : Token.Content} {word : Int} :
      Denotes addresses content word →
      Encoded addresses content word

/-- The words of some tokens one by one. -/
def EncodedAll
    (addresses : Table Int)
    (tokens : List Token)
    (words : List Int) : Prop :=
  List.Forall₂ (fun token word => Encoded addresses token.content word)
    (tokens.filter Token.takesWord) words

theorem Denotes.takesWord
    {addresses : Table Int}
    {token : Token}
    {word : Int}
    (denotes : Denotes addresses token.content word) :
    token.takesWord = true := by
  unfold Token.takesWord
  generalize token.content = content at denotes
  cases denotes <;> rfl

theorem EncodedAll.cons
    {addresses : Table Int}
    {token : Token}
    {tokens : List Token}
    {word : Int}
    {words : List Int}
    (takes : token.takesWord = true)
    (here : Encoded addresses token.content word)
    (later : EncodedAll addresses tokens words) :
    EncodedAll addresses (token :: tokens) (word :: words) := by
  rw [EncodedAll, List.filter_cons_of_pos takes]
  exact .cons here later

theorem EncodedAll.skip
    {addresses : Table Int}
    {token : Token}
    {tokens : List Token}
    {words : List Int}
    (takes : token.takesWord = false)
    (later : EncodedAll addresses tokens words) :
    EncodedAll addresses (token :: tokens) words := by
  rw [EncodedAll, List.filter_cons_of_neg (Bool.not_eq_true _ ▸ takes)]
  exact later

theorem Operands.encodedAll
    {addresses : Table Int}
    {kinds : List OperandKind}
    {tokens : List Token}
    {words : List Int}
    (operands : Operands addresses kinds tokens words) :
    EncodedAll addresses tokens words := by
  induction operands with
  | none => exact .nil
  | last denotes => exact .cons denotes.takesWord (.operand denotes) .nil
  | more denotes _ content _ hypothesis =>
      exact .cons denotes.takesWord (.operand denotes)
        (.skip (by rw [Token.takesWord, content]; rfl) hypothesis)

theorem Statement.encodedAll
    {addresses : Table Int}
    {tokens : List Token}
    {statement : Pending}
    (leading : Statement addresses tokens statement) :
    EncodedAll addresses tokens (statement.instruction.opcode :: statement.operands) := by
  cases leading with
  | intro content listed named operands =>
      refine .cons (by rw [Token.takesWord, content]; rfl) ?_ operands.encodedAll
      rw [content]
      exact .opcode listed named

/-- The tokens of code make the words of its instructions one by one. -/
theorem Statements.encodedAll
    {addresses : Table Int}
    {tokens : List Token}
    {statements : List Pending}
    (code : Statements addresses tokens statements) :
    EncodedAll addresses tokens (wordsOf statements) := by
  induction code with
  | nil => exact .nil
  | label content _ hypothesis =>
      exact .skip (by rw [Token.takesWord, content]; rfl) hypothesis
  | blank content _ hypothesis =>
      exact .skip (by rw [Token.takesWord, content]; rfl) hypothesis
  | line leading content _ hypothesis =>
      rw [EncodedAll, List.filter_append]
      exact List.rel_append leading.encodedAll
        (EncodedAll.skip (by rw [Token.takesWord, content]; rfl) hypothesis)
  | last leading =>
      rw [wordsOf, List.flatMap_singleton]
      exact leading.encodedAll

end Encoder

namespace Assembly

/-- The word that a content of the code section stands for, given the constants and the
addresses of the labels. -/
inductive Emits (constants : List Constant) (labels : Table Int) : Token.Content → Int → Prop
  | opcode {name : String} {instruction : Instruction} :
      instruction ∈ Instruction.all →
      instruction.mnemonic = Text.upperCase name →
      Emits constants labels (.mnemonic name) instruction.opcode
  | number (value : Int) :
      Emits constants labels (.number value) (value % 32768)
  | character {text : String} {c : Char} :
      text.toList = [c] →
      c.toNat < 32768 →
      Emits constants labels (.character text) c.toNat
  | register {name : String} {address : Int} :
      Machine.registerAddress? name = some address →
      Emits constants labels (.register name) address
  | constant {constant : Constant} :
      constant ∈ constants →
      Emits constants labels (.symbol constant.name) constant.value
  | label {name : String} {address : Int} :
      labels.get? name = some address →
      Emits constants labels (.symbol name) address

/-- Resolving a token and encoding the result makes the word that the token stands for. -/
theorem emits_of_encoded
    {constants : List Constant}
    {labels : Table Int}
    {names : List String}
    {source resolved : Token.Content}
    {word : Int}
    (resolves : Token.Resolves ⟨names, Constant.table constants⟩ source resolved)
    (encoded : Encoder.Encoded labels resolved word) :
    Emits constants labels source word := by
  have number {value : Int} (same : resolved = .number value) : word = value := by
    subst same
    cases encoded with
    | operand denotes =>
        cases denotes
        rfl
  cases resolves with
  | number value => exact number rfl ▸ .number value
  | character single small => exact number rfl ▸ .character single small
  | register found => exact number rfl ▸ .register found
  | constant found =>
      obtain ⟨listed, rfl⟩ := Symbols.mem_of_constantTable_get? found
      exact number rfl ▸ .constant listed
  | reference =>
      cases encoded with
      | operand denotes =>
          cases denotes with
          | name found => exact .label found
  | other plain =>
      cases encoded with
      | opcode listed named => exact .opcode listed named
      | operand denotes => cases denotes <;> cases plain

theorem takesWord_of_resolves
    {symbols : Symbols}
    {source resolved : Token}
    (resolves : Token.Resolves symbols source.content resolved.content) :
    source.takesWord = resolved.takesWord := by
  unfold Token.takesWord
  generalize source.content = before at resolves
  generalize resolved.content = after at resolves
  cases resolves <;> rfl

/-- The resolved tokens make the words of the program one by one. -/
theorem Stages.encodedAll
    {settings : Settings}
    {tokens : List Token}
    (stages : Stages settings tokens) :
    Encoder.EncodedAll stages.code.labels stages.resolved stages.code.words := by
  obtain ⟨labels_eq, encoded⟩ := Code.entriesOf_of_generate stages.generated
  obtain ⟨statements, code, entries_eq⟩ :=
    (Encoder.entriesOf_eq_ok_iff_statements ..).mp encoded
  rw [Code.words, entries_eq, Encoder.allWords_place, labels_eq]
  exact code.encodedAll

/-- The tokens of the code section that take a word make the words of the program in order. -/
theorem Stages.emits
    {settings : Settings}
    {tokens : List Token}
    (stages : Stages settings tokens) :
    List.Forall₂ (fun token word => Emits stages.constants stages.code.labels token.content word)
      (stages.layout.code.tokens.filter Token.takesWord) stages.code.words := by
  have resolves : List.Forall₂ (fun source resolved =>
      Token.Resolves stages.symbols source.content resolved.content)
      (stages.layout.code.tokens.filter Token.takesWord)
      (stages.resolved.filter Token.takesWord) := by
    refine List.rel_filter ?_ (((Token.resolveAll_eq_ok_iff ..).mp stages.resolves).imp
      fun _ _ both => both.1)
    intro source resolved resolves
    exact Bool.eq_iff_iff.mp (takesWord_of_resolves resolves)
  rw [stages.symbols_eq] at resolves
  exact Outcome.forall₂_trans resolves stages.encodedAll fun _ _ _ => emits_of_encoded

/-- An operand is written as a register, or as a label that is bound to a register's address. -/
def DenotesRegister
    (labels : Table Int)
    (content : Token.Content) : Prop :=
  (∃ name, content = .register name) ∨
    ∃ name address, content = .symbol name ∧ labels.get? name = some address ∧
      32768 ≤ address ∧ address ≤ 32775

/-- The word of an operand addresses a register for registers, for labels with such an address,
and for nothing else. -/
theorem Stages.denotesRegister_iff
    {settings : Settings}
    {tokens : List Token}
    (stages : Stages settings tokens)
    {content : Token.Content}
    {word : Int}
    (emits : Emits stages.constants stages.code.labels content word)
    (operand : content.isOperand = true) :
    32768 ≤ word ∧ word ≤ 32775 ↔ DenotesRegister stages.code.labels content := by
  unfold DenotesRegister
  cases emits with
  | opcode => cases operand
  | number value =>
      simp only [reduceCtorEq, exists_false, false_and, or_self, iff_false]
      omega
  | character _ small =>
      simp only [reduceCtorEq, exists_false, false_and, or_self, iff_false]
      omega
  | register found => simp [Machine.registerAddress?_bounds found]
  | @constant constant listed =>
      obtain ⟨declared, _⟩ := (Constant.compile_eq_ok_iff ..).mp stages.compiled
      have bounds := declared.value_bounds constant listed
      constructor
      · omega
      · rintro (⟨name, same⟩ | ⟨name, address, same, bound, _⟩)
        · cases same
        · cases same
          exact absurd (List.mem_map_of_mem listed) (stages.not_mem_constants_of_label bound)
  | label found =>
      simp only [reduceCtorEq, exists_false, false_or]
      constructor
      · intro range
        exact ⟨_, _, rfl, found, range⟩
      · rintro ⟨name, address, same, bound, range⟩
        cases same
        cases found.symm.trans bound
        exact range

/-- In every assembled source, mnemonics make opcodes, and the word that an operand makes
addresses a register exactly when the operand is a register or a label bound to the address of
one. -/
theorem register_word_iff
    {settings : Settings}
    {source file : String}
    {assembly : Assembly}
    (assembled : ofSource settings source file = .ok assembly) :
    ∃ tokens layout, Token.ofSource source file = .ok tokens ∧
      Layout.ofTokens tokens = .ok layout ∧
      assembly.words = Entry.allWords assembly.entries ++ terminator settings ∧
      List.Forall₂
        (fun (token : Token) (word : Int) =>
          (∃ name instruction, token.content = .mnemonic name ∧
            Instruction.ofMnemonic? name = some instruction ∧ word = instruction.opcode) ∨
          (token.content.isOperand = true ∧
            (32768 ≤ word ∧ word ≤ 32775 ↔ DenotesRegister assembly.labels token.content)))
        (layout.code.tokens.filter Token.takesWord) (Entry.allWords assembly.entries) := by
  obtain ⟨tokens, read, stages, rfl⟩ := (ofSource_eq_ok_iff ..).mp assembled
  refine ⟨tokens, stages.layout, read, stages.divided, rfl, stages.emits.imp ?_⟩
  intro token word emits
  cases operand : token.content.isOperand with
  | true => exact .inr ⟨rfl, stages.denotesRegister_iff emits operand⟩
  | false =>
      generalize token.content = content at emits operand
      cases emits with
      | opcode listed named =>
          exact .inl ⟨_, _, rfl, (Instruction.ofMnemonic?_eq_some_iff ..).mpr ⟨listed, named⟩, rfl⟩
      | _ => cases operand

/-- A register, a label and a constant as operands: only the register makes a register's
address. -/
theorem register_word_iff_of_each_operand :
    ∃ tokens layout,
      Token.ofSource ".data\nk NUM 3\n.code\nmain: SET a, main\nOUT k" "<input>" = .ok tokens ∧
      Layout.ofTokens tokens = .ok layout ∧
      List.Forall₂
        (fun (token : Token) (word : Int) =>
          (∃ name instruction, token.content = .mnemonic name ∧
            Instruction.ofMnemonic? name = some instruction ∧ word = instruction.opcode) ∨
          (token.content.isOperand = true ∧
            (32768 ≤ word ∧ word ≤ 32775 ↔ DenotesRegister ⟨[("main", 0)]⟩ token.content)))
        (layout.code.tokens.filter Token.takesWord) [1, 32768, 0, 19, 3] := by
  have assembled : ofSource {} ".data\nk NUM 3\n.code\nmain: SET a, main\nOUT k" "<input>" = .ok {
      words := [1, 32768, 0, 19, 3, 0, 0]
      constants := [⟨"k", 3, 2, "<input>"⟩]
      labels := ⟨[("main", 0)]⟩
      entries := [⟨0, 4, "SET", [1, 32768, 0]⟩, ⟨3, 5, "OUT", [19, 3]⟩]
      sourceLines := [".data", "k NUM 3", ".code", "main: SET a, main", "OUT k"] } := by
    decide +kernel
  obtain ⟨tokens, layout, read, divided, _, words⟩ := register_word_iff assembled
  exact ⟨tokens, layout, read, divided, words⟩

end Assembly
end WordAsm
