import WordAsm.Proofs.Assembly.Stages
import WordAsm.Proofs.Section
import WordAsm.Proofs.Token.Continuation

/-!
# Lines below a program

Tokens that declare nothing may be put below a program whose code section comes last. They go to
that section, so all symbols and addresses stay, and the encoder goes on where it stopped. So
every constant of a program can be used on a new line, and so can every label unless its name is
a type word: such a label can be declared, but a reference to it is read as the type.
-/

namespace WordAsm
namespace Assembly

namespace Stages

variable {settings : Settings} {tokens more resolved : List Token}

/-- The entry point is declared in the code section, so the section is not empty. -/
theorem code_ne_nil (stages : Stages settings tokens) :
    stages.layout.code.tokens ≠ [] := by
  obtain ⟨_, _, entry, _⟩ := (Symbols.validate_eq_ok_iff ..).mp stages.validated
  intro empty
  rw [empty] at entry
  cases entry

/-- If the last marker opens the code section, the data section comes first. -/
theorem dataFirst_of_openSection
    (stages : Stages settings tokens)
    (codeLast : Token.openSection (tokens.map (·.content)) = some "code") :
    stages.layout.dataFirst = true := by
  rw [Token.openSection, List.filterMap_map] at codeLast
  exact (Layout.dataFirst_iff stages.divided).mpr codeLast

/-- The assembly with other entries. -/
def withEntries
    (stages : Stages settings tokens)
    (entries : List Entry) : Assembly where
  words := Entry.allWords entries ++ terminator settings
  constants := stages.constants
  labels := stages.code.labels
  entries := entries

/-- Tokens that declare nothing are encoded behind the program, with its symbols and addresses. -/
theorem ofTokens_append
    (stages : Stages settings tokens)
    (dataFirst : stages.layout.dataFirst = true)
    (unmarked : ∀ token ∈ more, token.content.isMarker = false)
    (unlabelled : Symbols.labelsOf more = [])
    (resolves : Token.resolveAll stages.symbols more = .ok resolved) :
    ofTokens settings (tokens ++ more) =
      (Encoder.entriesOf stages.code.labels (stages.resolved ++ resolved)).map
        stages.withEntries := by
  have divided := Layout.ofTokens_append stages.divided dataFirst stages.code_ne_nil unmarked
  have labels_eq : Symbols.labelsOf (stages.layout.code.tokens ++ more) =
      Symbols.labelsOf stages.layout.code.tokens := by
    rw [Symbols.labelsOf, List.filterMap_append, ← Symbols.labelsOf, ← Symbols.labelsOf,
      unlabelled, List.append_nil]
  have validated : Symbols.validate (stages.layout.code.tokens ++ more) stages.constants
      settings.entryPoint = .ok stages.symbols := by
    rw [Symbols.validate_eq_ok_iff, labels_eq]
    exact (Symbols.validate_eq_ok_iff ..).mp stages.validated
  have allResolved : Token.resolveAll stages.symbols (stages.layout.code.tokens ++ more) =
      .ok (stages.resolved ++ resolved) :=
    (Token.resolveAll_eq_ok_iff ..).mpr
      (List.rel_append ((Token.resolveAll_eq_ok_iff ..).mp stages.resolves)
        ((Token.resolveAll_eq_ok_iff ..).mp resolves))
  have table_eq : Address.table (stages.resolved ++ resolved) = stages.code.labels := by
    rw [(Code.entriesOf_of_generate stages.generated).1]
    apply Address.table_append
    rw [← List.filterMap_eq_nil_iff]
    exact (labelsOf_of_resolveAll resolves).trans unlabelled
  simp only [ofTokens, divided, stages.compiled, validated, allResolved, Code.generate, table_eq,
    bind, Except.bind]
  cases Encoder.entriesOf stages.code.labels (stages.resolved ++ resolved) <;> rfl

/-- Where the last line of a program is ended, the encoder stops between instructions. -/
theorem exists_moves
    (stages : Stages settings tokens)
    (dataFirst : stages.layout.dataFirst = true)
    (ended : ∀ token ∈ tokens.getLast?, token.content = .lineEnd) :
    ∃ completed,
      Encoder.Moves stages.code.labels .instruction stages.resolved .instruction completed ∧
        stages.code.entries = Encoder.place 0 completed := by
  obtain ⟨front, tokens_eq⟩ := Layout.suffix_of_dataFirst stages.divided dataFirst
  -- The code section ends where the source ends, and the last token is resolved to itself. The
  -- lists are reversed to have their last tokens in front.
  have each := List.rel_reverse ((Token.resolveAll_eq_ok_iff ..).mp stages.resolves)
  cases reversed : stages.layout.code.tokens.reverse with
  | nil => exact absurd (List.reverse_eq_nil_iff.mp reversed) stages.code_ne_nil
  | cons last before =>
      rw [reversed, List.forall₂_cons_left_iff] at each
      obtain ⟨result, earlier, ⟨resolves, _⟩, _, resolved_eq⟩ := each
      rw [List.reverse_eq_cons_iff] at reversed resolved_eq
      have content : result.content = .lineEnd := by
        rw [ended last (by rw [← tokens_eq, reversed]; simp)] at resolves
        generalize result.content = content at resolves
        cases resolves
        rfl
      obtain ⟨labels_eq, encoded⟩ := Code.entriesOf_of_generate stages.generated
      rw [← labels_eq] at encoded
      rw [resolved_eq] at encoded ⊢
      exact Encoder.exists_moves_of_lineEnd encoded content

section

variable {name : String} {operand content : Token.Content} {instruction : Instruction}
  {kind : OperandKind}

/-- A line with one operand is encoded behind the program. -/
theorem ofTokens_line
    (stages : Stages settings tokens)
    (dataFirst : stages.layout.dataFirst = true)
    (line : more.map (·.content) = [.mnemonic name, operand, .lineEnd])
    (plain : operand.isMarker = false ∧ operand.label? = none)
    (resolves : Token.Resolves stages.symbols operand content) :
    ∃ opening second ending : Token, opening.content = .mnemonic name ∧
      second.content = content ∧ ending.content = .lineEnd ∧
      ofTokens settings (tokens ++ more) =
        (Encoder.entriesOf stages.code.labels (stages.resolved ++ [opening, second, ending])).map
          stages.withEntries := by
  obtain ⟨opening, later, rfl, begins, behind⟩ := List.map_eq_cons_iff.mp line
  obtain ⟨second, last, rfl, rfl, closing⟩ := List.map_eq_cons_iff.mp behind
  obtain ⟨ending, rfl, ends⟩ := List.map_eq_singleton_iff.mp closing
  refine ⟨opening, { second with content }, ending, begins, rfl, ends, ?_⟩
  apply stages.ofTokens_append dataFirst
  · simp only [List.forall_mem_cons, begins, ends, plain.1]
    simp [Token.Content.isMarker]
  · simp only [Symbols.labelsOf, List.filterMap_cons, begins, ends, plain.2]
    rfl
  · rw [Token.resolveAll_eq_ok_iff]
    refine .cons ⟨.other ?_, rfl⟩ (.cons ⟨resolves, rfl⟩ (.cons ⟨.other ?_, rfl⟩ .nil))
    · rw [begins]
      rfl
    · rw [ends]
      rfl

/-- A line whose operand stands for a word adds the opcode and the word. -/
theorem ofTokens_line_eq_ok
    (stages : Stages settings tokens)
    (dataFirst : stages.layout.dataFirst = true)
    (ended : ∀ token ∈ tokens.getLast?, token.content = .lineEnd)
    (line : more.map (·.content) = [.mnemonic name, operand, .lineEnd])
    (plain : operand.isMarker = false ∧ operand.label? = none)
    (found : Instruction.ofMnemonic? name = some instruction)
    (single : instruction.operands = [kind])
    {word : Int}
    (resolves : Token.Resolves stages.symbols operand content)
    (denotes : Encoder.Denotes stages.code.labels content word)
    (suits : Encoder.Suits kind word) :
    ∃ extended, ofTokens settings (tokens ++ more) = .ok extended ∧
      extended.words =
        Entry.allWords stages.code.entries ++ [(instruction.opcode : Int), word] ++
          terminator settings := by
  obtain ⟨completed, moves, entries_eq⟩ := stages.exists_moves dataFirst ended
  obtain ⟨opening, second, ending, begins, rfl, ends, tokens_eq⟩ :=
    stages.ofTokens_line dataFirst line plain resolves
  let statement : Encoder.Pending := ⟨instruction, opening.location.line, [word]⟩
  have below : Encoder.Moves stages.code.labels .instruction [opening, second, ending]
      .instruction [statement] :=
    .cons (.begin begins found single) (.cons (.operand denotes suits)
      (.cons (.close ends) (.nil _)))
  have encoded := (Encoder.entriesOf_eq_ok_iff ..).mpr
    ⟨_, _, [], moves.append below, .between, rfl⟩
  rw [tokens_eq, encoded]
  refine ⟨_, rfl, ?_⟩
  rw [withEntries, List.append_nil, entries_eq, Encoder.allWords_place, Encoder.allWords_place,
    Encoder.wordsOf, List.flatMap_append]
  rfl

/-- A line whose operand is a type word is refused. -/
theorem ofTokens_line_eq_error
    (stages : Stages settings tokens)
    (dataFirst : stages.layout.dataFirst = true)
    (ended : ∀ token ∈ tokens.getLast?, token.content = .lineEnd)
    {type : String}
    (line : more.map (·.content) = [.mnemonic name, .typeWord type, .lineEnd])
    (found : Instruction.ofMnemonic? name = some instruction)
    (single : instruction.operands = [kind]) :
    ∃ location, ofTokens settings (tokens ++ more) =
      .error (.located location (.noOperand instruction.mnemonic (.typeWord type))) := by
  obtain ⟨completed, moves, _⟩ := stages.exists_moves dataFirst ended
  obtain ⟨opening, second, ending, begins, typed, _, tokens_eq⟩ :=
    stages.ofTokens_line dataFirst line ⟨rfl, rfl⟩ (.other rfl)
  -- All stages before the encoder accept a type word, and the encoder reads the mnemonic.
  have begun := moves.append (.cons (.begin begins found single) (.nil _))
  have failed : ∀ encoder : Encoder,
      encoder.state = .operand ⟨instruction, opening.location.line, []⟩ kind [] →
      Encoder.step stages.code.labels encoder second =
        .error (.located second.location (.noOperand instruction.mnemonic (.typeWord type))) := by
    intro encoder expected
    simp [Encoder.step, expected, Encoder.readOperand, Encoder.operandWord, typed, bind,
      Except.bind]
  refine ⟨second.location, ?_⟩
  have refused := Encoder.entriesOf_of_step_error begun failed [ending]
  rw [List.append_assoc] at refused
  rw [tokens_eq]
  exact congrArg (Except.map _) refused

end

/-! ## Names that can be used -/

/-- A label that is declared in a source has a name and is no register. It may be a type word. -/
theorem name_of_label
    (stages : Stages settings tokens)
    (readable : Token.Readable (tokens.map (·.content)))
    {name : String}
    {address : Int}
    (bound : stages.code.labels.get? name = some address) :
    Lexeme.isName name = true ∧ ¬ Token.IsRegisterLetter name := by
  obtain ⟨token, listed, content⟩ :=
    (Symbols.mem_labelsOf_iff ..).mp (stages.mem_labelsOf bound)
  have inside := (Layout.infix_of_ofTokens stages.divided).2.subset listed
  obtain ⟨before, admissible⟩ := readable.exists_admissible (List.mem_map_of_mem inside)
  rw [content] at admissible
  exact admissible

/-- A constant is declared by a symbol, so its name is neither a register nor a type word. -/
theorem name_of_constant
    (stages : Stages settings tokens)
    (readable : Token.Readable (tokens.map (·.content)))
    {constant : Constant}
    (declared : constant ∈ stages.constants) :
    Lexeme.isName constant.name = true ∧ ¬ Token.IsTypeWord constant.name ∧
      ¬ Token.IsRegisterLetter constant.name := by
  obtain ⟨declarations, _⟩ := (Constant.compile_eq_ok_iff ..).mp stages.compiled
  obtain ⟨token, listed, content⟩ := declarations.exists_symbol constant declared
  have inside := (Layout.infix_of_ofTokens stages.divided).1.subset listed
  obtain ⟨before, admissible⟩ := readable.exists_admissible (List.mem_map_of_mem inside)
  rw [content] at admissible
  exact admissible.2

end Stages

/-- A source with a line below it that applies an instruction to a name. -/
def lineBelow (source mnemonic name : String) : String :=
  source ++ "\n" ++ (mnemonic ++ " " ++ name ++ "\n")

section

variable {settings : Settings} {source file name : String} {tokens : List Token}
  {instruction : Instruction} {kind : OperandKind}

/-- The line below a source is read as the instruction and the name. -/
theorem exists_line_below
    (read : Token.ofSource source file = .ok tokens)
    (codeLast : Token.openSection (tokens.map (·.content)) = some "code")
    (known : instruction ∈ Instruction.all)
    (named : Lexeme.isName name = true)
    (free : ¬ Token.IsRegisterLetter name) :
    ∃ more, Token.ofSource (lineBelow source instruction.mnemonic name) file =
        .ok (tokens ++ more) ∧
      more.map (·.content) = [.mnemonic instruction.mnemonic,
        if Token.IsTypeWord name then .typeWord (String.ofList (name.toList.map Char.toUpper))
        else .symbol name,
        .lineEnd] := by
  obtain ⟨written, capitals, _⟩ := Instruction.mnemonic_of_mem known
  have readable : Token.Readable (tokens.map (·.content)) := Token.Yields.readable ⟨_, read, rfl⟩
  have ended := (Token.continues_iff ..).mp ((Token.readable_iff_continues _).mp readable)
  refine Token.exists_tokens_of_below read
    (Token.reads_line ended.2 ?_ written capitals named free)
  rw [codeLast]
  decide

/-- The last line of a source is ended. -/
theorem ended_of_read
    (read : Token.ofSource source file = .ok tokens) :
    ∀ token ∈ tokens.getLast?, token.content = .lineEnd := by
  have readable : Token.Readable (tokens.map (·.content)) := Token.Yields.readable ⟨_, read, rfl⟩
  intro token last
  apply readable.ended
  rw [List.getLast?_map]
  exact Option.mem_map_of_mem _ last

/-- A label can be used below its program, unless its name is a type word. -/
theorem ofSource_label_below
    (read : Token.ofSource source file = .ok tokens)
    (codeLast : Token.openSection (tokens.map (·.content)) = some "code")
    (stages : Stages settings tokens)
    (known : instruction ∈ Instruction.all)
    (single : instruction.operands = [kind])
    (unrestricted : kind ≠ .register)
    {address : Int}
    (bound : stages.code.labels.get? name = some address) :
    if Token.IsTypeWord name then
      ∃ location, ofSource settings (lineBelow source instruction.mnemonic name) file =
        .error (.located location (.noOperand instruction.mnemonic
          (.typeWord (String.ofList (name.toList.map Char.toUpper)))))
    else
      ∃ extended, ofSource settings (lineBelow source instruction.mnemonic name) file =
          .ok extended ∧
        extended.words = Entry.allWords stages.code.entries ++
          [(instruction.opcode : Int), address] ++ terminator settings := by
  obtain ⟨named, free⟩ := stages.name_of_label (Token.Yields.readable ⟨_, read, rfl⟩) bound
  obtain ⟨more, read_eq, line⟩ := exists_line_below read codeLast known named free
  obtain ⟨_, _, upper⟩ := Instruction.mnemonic_of_mem known
  have found := (Instruction.ofMnemonic?_eq_some_iff ..).mpr ⟨known, upper.symm⟩
  have dataFirst := stages.dataFirst_of_openSection codeLast
  split
  · next typed =>
      rw [if_pos typed] at line
      obtain ⟨location, refused⟩ :=
        stages.ofTokens_line_eq_error dataFirst (ended_of_read read) line found single
      refine ⟨location, ?_⟩
      rw [ofSource_of_read read_eq, refused]
      rfl
  · next untyped =>
      rw [if_neg untyped] at line
      have absent : stages.symbols.constants.get? name = none := by
        rw [stages.symbols_eq, Symbols.constantTable_get?_eq_none_iff]
        exact stages.not_mem_constants_of_label bound
      have declared : name ∈ stages.symbols.labels := by
        rw [stages.symbols_eq]
        exact stages.mem_labelsOf bound
      obtain ⟨extended, accepted, words_eq⟩ :=
        stages.ofTokens_line_eq_ok dataFirst (ended_of_read read) line ⟨rfl, rfl⟩ found single
          (.reference absent declared) (.name bound) fun register => absurd register unrestricted
      exact ⟨_, (ofSource_of_read read_eq).trans (congrArg (Except.map _) accepted), words_eq⟩

/-- A constant can be used below its program. -/
theorem ofSource_constant_below
    (read : Token.ofSource source file = .ok tokens)
    (codeLast : Token.openSection (tokens.map (·.content)) = some "code")
    (stages : Stages settings tokens)
    (known : instruction ∈ Instruction.all)
    (single : instruction.operands = [kind])
    (unrestricted : kind ≠ .register)
    {constant : Constant}
    (declared : constant ∈ stages.constants) :
    ∃ extended, ofSource settings (lineBelow source instruction.mnemonic constant.name) file =
        .ok extended ∧
      extended.words = Entry.allWords stages.code.entries ++
        [(instruction.opcode : Int), constant.value] ++ terminator settings := by
  obtain ⟨named, untyped, free⟩ :=
    stages.name_of_constant (Token.Yields.readable ⟨_, read, rfl⟩) declared
  obtain ⟨more, read_eq, line⟩ := exists_line_below read codeLast known named free
  obtain ⟨_, _, upper⟩ := Instruction.mnemonic_of_mem known
  have found := (Instruction.ofMnemonic?_eq_some_iff ..).mpr ⟨known, upper.symm⟩
  rw [if_neg untyped] at line
  have entered : stages.symbols.constants.get? constant.name = some constant := by
    obtain ⟨_, distinct⟩ := (Constant.compile_eq_ok_iff ..).mp stages.compiled
    rw [stages.symbols_eq]
    exact Symbols.constantTable_get?_of_mem distinct declared
  obtain ⟨extended, accepted, words_eq⟩ :=
    stages.ofTokens_line_eq_ok (stages.dataFirst_of_openSection codeLast) (ended_of_read read)
      line ⟨rfl, rfl⟩ found single (.constant entered) (.number _)
      fun register => absurd register unrestricted
  exact ⟨_, (ofSource_of_read read_eq).trans (congrArg (Except.map _) accepted), words_eq⟩

end

/-- Below an assembled source that ends in its code section, every label whose name is no type
word can be jumped to, and every constant can be put out. The new words stand between the program
and its terminator. A jump to a label whose name is a type word is refused. -/
theorem ofSource_symbol_below
    {settings : Settings}
    {source file : String}
    {contents : List Token.Content}
    {assembly : Assembly}
    (yields : Token.Yields file source contents)
    (codeLast : Token.openSection contents = some "code")
    (assembled : ofSource settings source file = .ok assembly) :
    ∃ program, assembly.words = program ++ terminator settings ∧
      (∀ name address, assembly.labels.get? name = some address →
        if Token.IsTypeWord name then
          ∃ location, ofSource settings (lineBelow source "JMP" name) file =
            .error (.located location
              (.noOperand "JMP" (.typeWord (String.ofList (name.toList.map Char.toUpper)))))
        else
          ∃ extended, ofSource settings (lineBelow source "JMP" name) file = .ok extended ∧
            extended.words = program ++ [6, address] ++ terminator settings) ∧
      ∀ name value, assembly.constantValues.get? name = some value →
        ∃ extended, ofSource settings (lineBelow source "OUT" name) file = .ok extended ∧
          extended.words = program ++ [19, value] ++ terminator settings := by
  obtain ⟨tokens, read, stages, rfl⟩ := (ofSource_eq_ok_iff ..).mp assembled
  obtain ⟨others, read_eq, rfl⟩ := yields
  cases read.symm.trans read_eq
  have jump : (⟨"JMP", 6, [.target]⟩ : Instruction) ∈ Instruction.all := by decide
  have output : (⟨"OUT", 19, [.value]⟩ : Instruction) ∈ Instruction.all := by decide
  refine ⟨Entry.allWords stages.code.entries, rfl, ?_, ?_⟩
  · intro name address bound
    exact ofSource_label_below read codeLast stages jump rfl (by decide) bound
  · intro name value entered
    obtain ⟨constant, declared, same⟩ := List.mem_map.mp (Table.mem_of_get?_ofList entered)
    cases same
    exact ofSource_constant_below read codeLast stages output rfl (by decide) declared

/-- A program with a constant and two labels, one of which has a type word as its name. -/
def typeNamed : String :=
  ".data\nk NUM 3\n.code\nmain: NOOP\nNum: NOOP ; no line break"

theorem ofSource_symbol_below_typeNamed :
    (∃ extended, ofSource {} (lineBelow typeNamed "JMP" "main") = .ok extended ∧
        extended.words = [21, 21, 6, 0, 0, 0]) ∧
      (∃ extended, ofSource {} (lineBelow typeNamed "OUT" "k") = .ok extended ∧
        extended.words = [21, 21, 19, 3, 0, 0]) ∧
      ∃ location, ofSource {} (lineBelow typeNamed "JMP" "Num") =
        .error (.located location (.noOperand "JMP" (.typeWord "NUM"))) := by
  have last : (Token.ofSource typeNamed).map
      (fun tokens => Token.openSection (tokens.map (·.content))) = .ok (some "code") := by
    decide +kernel
  obtain ⟨tokens, read, codeLast⟩ := Outcome.map_eq_ok_iff.mp last
  have assembled : ofSource {} typeNamed = .ok {
      words := [21, 21, 0, 0]
      constants := [⟨"k", 3, 2, "<input>"⟩]
      labels := ⟨[("main", 0), ("Num", 1)]⟩
      entries := [⟨0, 4, "NOOP", [21]⟩, ⟨1, 5, "NOOP", [21]⟩]
      sourceLines := [".data", "k NUM 3", ".code", "main: NOOP",
        "Num: NOOP ; no line break"] } := by
    decide +kernel
  obtain ⟨program, words_eq, labels, constants⟩ :=
    ofSource_symbol_below ⟨tokens, read, rfl⟩ codeLast assembled
  have program_eq : [21, 21] = program := List.append_cancel_right words_eq
  subst program_eq
  exact ⟨labels "main" 0 rfl, constants "k" 3 rfl, labels "Num" 1 rfl⟩

end Assembly
end WordAsm
