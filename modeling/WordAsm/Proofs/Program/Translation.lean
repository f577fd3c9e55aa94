import Mathlib.Data.List.Nodup
import WordAsm.Proofs.Assembly.Stages
import WordAsm.Proofs.Program.Tokens
import WordAsm.Proofs.Section

/-!
# Every program is translated

The text of a program goes through all stages of an assembly. Each stage is followed on the
contents of the tokens: what the data section declares, which names the code section declares,
what the operands resolve to, where the labels are bound, and which words are encoded. In the
end the words are those of the program's own translation.
-/

namespace WordAsm
namespace Program

open Token (Content Resolves)

/-! ## Declarations -/

/-- A literal is of its type and stands for its word. -/
theorem Literal.value_content (literal : Literal) :
    Constant.Value literal.type literal.content literal.word := by
  cases literal with
  | number value => exact .number value
  | character c small => exact .character String.toList_ofList small

/-- The lines of declarations compile to constants with their names and words. -/
theorem exists_constants
    (declarations : List Declaration)
    (tokens : List Token)
    (contents_eq : tokens.map (·.content) = declarations.flatMap Declaration.contents) :
    ∃ constants, Constant.Declarations tokens constants ∧
      constants.map (fun constant => (constant.name, constant.value)) =
        declarations.map Declaration.binding := by
  induction declarations generalizing tokens with
  | nil =>
      rw [List.flatMap_nil, List.map_eq_nil_iff] at contents_eq
      subst contents_eq
      exact ⟨[], .nil, rfl⟩
  | cons declaration declarations hypothesis =>
      rw [List.flatMap_cons, Declaration.contents] at contents_eq
      obtain ⟨first, tokens, rfl, name, contents_eq⟩ := List.map_eq_cons_iff.mp contents_eq
      obtain ⟨second, tokens, rfl, type, contents_eq⟩ := List.map_eq_cons_iff.mp contents_eq
      obtain ⟨third, tokens, rfl, literal, contents_eq⟩ := List.map_eq_cons_iff.mp contents_eq
      obtain ⟨fourth, tokens, rfl, ended, contents_eq⟩ := List.map_eq_cons_iff.mp contents_eq
      obtain ⟨constants, declared, values⟩ := hypothesis tokens contents_eq
      have valued : Constant.Value declaration.literal.type third.content
          declaration.literal.word := by
        rw [literal]
        exact declaration.literal.value_content
      refine ⟨_, .cons name type valued ended declared, ?_⟩
      rw [List.map_cons, List.map_cons, values]
      rfl

/-! ## Names -/

/-- A list of operands holds commas and what stands for the operands. -/
theorem Operand.eq_comma_or_of_mem_contents
    {meaning : Operand → Content}
    {operands : List Operand}
    {content : Content}
    (listed : content ∈ Operand.contents meaning operands) :
    content = .comma ∨ ∃ operand, content = meaning operand := by
  cases operands with
  | nil => cases listed
  | cons first later =>
      obtain rfl | listed := List.mem_cons.mp listed
      · exact .inr ⟨first, rfl⟩
      · obtain ⟨operand, _, listed⟩ := List.mem_flatMap.mp listed
        simp only [List.mem_cons, List.not_mem_nil, or_false] at listed
        exact listed.imp_right fun same => ⟨operand, same⟩

/-- The labels of a code section are those of its items. -/
theorem label?_contents
    (meaning : Operand → Content)
    (unlabelled : ∀ operand, (meaning operand).label? = none)
    (items : List Item) :
    (items.flatMap (Item.contents meaning)).filterMap (·.label?) =
      (items.filterMap (·.label?)).map (·.text) := by
  induction items with
  | nil => rfl
  | cons item items hypothesis =>
      rw [List.flatMap_cons, List.filterMap_append, hypothesis]
      cases item with
      | label name => rfl
      | operation body =>
          have operands : (Operand.contents meaning body.operands).filterMap (·.label?) = [] := by
            rw [List.filterMap_eq_nil_iff]
            intro content listed
            obtain rfl | ⟨operand, rfl⟩ := Operand.eq_comma_or_of_mem_contents listed
            · rfl
            · exact unlabelled operand
          rw [Item.contents, List.cons_append, List.filterMap_cons_none rfl,
            List.filterMap_append, operands]
          rfl

/-! ## Operands -/

/-- What an operand resolves to: the label stays, and all else is a number. -/
def Operand.resolved : Operand → Content
  | .register slot => .number (32768 + (slot.index : Nat))
  | .literal given => .number given.word
  | .constant declaration => .number declaration.literal.word
  | .label name => .symbol name.text

theorem Operand.label?_content (operand : Operand) :
    operand.content.label? = none := by
  cases operand with
  | literal given => cases given <;> rfl
  | _ => rfl

theorem Operand.label?_resolved (operand : Operand) :
    operand.resolved.label? = none := by
  cases operand <;> rfl

theorem Operand.width_resolved (operand : Operand) :
    operand.resolved.width = 1 := by
  cases operand <;> rfl

/-- A declared operand resolves where the declared names are known. -/
theorem Operand.resolves
    {symbols : Symbols}
    {constants : List Declaration}
    {labels : List Name}
    (known : ∀ declaration ∈ constants, ∃ constant,
      symbols.constants.get? declaration.name.text = some constant ∧
        constant.value = declaration.literal.word)
    (named : ∀ name ∈ labels, name.text ∈ symbols.labels ∧
      symbols.constants.get? name.text = none)
    {operand : Operand}
    (declared : operand.Declared constants labels) :
    Resolves symbols operand.content operand.resolved := by
  cases operand with
  | register slot => exact .register (registerAddress?_letter slot)
  | literal given =>
      cases given with
      | number value => exact .number value
      | character c small => exact .character String.toList_ofList small
  | constant declaration =>
      obtain ⟨constant, found, value_eq⟩ := known declaration declared
      rw [resolved, ← value_eq]
      exact .constant found
  | label name =>
      obtain ⟨listed, absent⟩ := named name declared
      exact .reference absent listed

/-- Each part of a line resolves on its own, and only operands change. -/
theorem Item.forall₂_resolves
    {symbols : Symbols}
    (item : Item)
    (each : ∀ operand ∈ item.operands, Resolves symbols operand.content operand.resolved) :
    List.Forall₂ (Resolves symbols) (item.contents Operand.content)
      (item.contents Operand.resolved) := by
  cases item with
  | label name => exact .cons (.other rfl) (.cons (.other rfl) .nil)
  | operation body =>
      refine .cons (.other rfl) (List.rel_append ?_ (.cons (.other rfl) .nil))
      change ∀ operand ∈ body.operands, _ at each
      generalize body.operands = operands at each
      cases operands with
      | nil => exact .nil
      | cons first later =>
          rw [List.forall_mem_cons] at each
          have behind : List.Forall₂ (fun (source result : Operand) =>
              Resolves symbols source.content result.resolved) later later :=
            List.forall₂_same.mpr each.2
          refine .cons each.1 (List.rel_flatMap behind ?_)
          intro source result resolves
          exact .cons (.other rfl) (.cons resolves .nil)

/-- Tokens whose contents resolve, resolve in their places. -/
theorem exists_resolveAll
    {symbols : Symbols}
    {contents resolved : List Content}
    (resolves : List.Forall₂ (Resolves symbols) contents resolved)
    (tokens : List Token)
    (contents_eq : tokens.map (·.content) = contents) :
    ∃ results, Token.resolveAll symbols tokens = .ok results ∧
      results.map (·.content) = resolved := by
  simp only [Token.resolveAll_eq_ok_iff]
  induction resolves generalizing tokens with
  | nil =>
      rw [List.map_eq_nil_iff] at contents_eq
      subst contents_eq
      exact ⟨[], .nil, rfl⟩
  | @cons content result contents resolved here _ hypothesis =>
      obtain ⟨token, tokens, rfl, rfl, later⟩ := List.map_eq_cons_iff.mp contents_eq
      obtain ⟨results, each, results_eq⟩ := hypothesis tokens later
      refine ⟨⟨result, token.location⟩ :: results, .cons ⟨here, rfl⟩ each, ?_⟩
      rw [List.map_cons, results_eq]

/-! ## Symbols -/

section Symbols

variable {code : List Token} {constants : List Constant}

theorem labelsOf_eq
    (program : Program)
    (contents_eq : code.map (·.content) =
      program.items.flatMap (Item.contents Operand.content)) :
    Symbols.labelsOf code = program.labels.map (·.text) := by
  rw [labels, ← label?_contents Operand.content Operand.label?_content, ← contents_eq,
    List.filterMap_map]
  rfl

theorem map_name_eq
    (program : Program)
    (values : constants.map (fun constant => (constant.name, constant.value)) =
      program.constants.map Declaration.binding) :
    constants.map (·.name) = (program.constants.map (·.name)).map (·.text) := by
  have firsts := congrArg (List.map Prod.fst) values
  rw [List.map_map, List.map_map] at firsts
  rw [List.map_map]
  exact firsts

theorem nodup_names
    (program : Program)
    (values : constants.map (fun constant => (constant.name, constant.value)) =
      program.constants.map Declaration.binding) :
    (constants.map (·.name)).Nodup := by
  rw [program.map_name_eq values]
  exact List.Nodup.map (fun _ _ => Name.ext) (List.nodup_append.mp program.distinct).1

/-- No label of a program has the name of a constant. -/
theorem text_not_mem_names
    (program : Program)
    (values : constants.map (fun constant => (constant.name, constant.value)) =
      program.constants.map Declaration.binding)
    {name : Name}
    (listed : name ∈ program.labels) :
    name.text ∉ constants.map (·.name) := by
  rw [program.map_name_eq values]
  intro repeated
  obtain ⟨other, among, same⟩ := List.mem_map.mp repeated
  exact (List.nodup_append.mp program.distinct).2.2 other among name listed (Name.ext same)

/-- The declared constants are found with their words. -/
theorem exists_constant
    (program : Program)
    (values : constants.map (fun constant => (constant.name, constant.value)) =
      program.constants.map Declaration.binding)
    {declaration : Declaration}
    (declared : declaration ∈ program.constants) :
    ∃ constant, (Constant.table constants).get? declaration.name.text = some constant ∧
      constant.value = declaration.literal.word := by
  have listed : declaration.binding ∈
      constants.map fun constant => (constant.name, constant.value) := by
    rw [values]
    exact List.mem_map_of_mem declared
  obtain ⟨constant, compiled, same⟩ := List.mem_map.mp listed
  obtain ⟨name_eq, value_eq⟩ := Prod.mk.inj same
  have found := Symbols.constantTable_get?_of_mem (program.nodup_names values) compiled
  rw [name_eq] at found
  exact ⟨constant, found, value_eq⟩

/-- The names of a program pass, and the declared operands resolve. -/
theorem exists_symbols
    (program : Program)
    (contents_eq : code.map (·.content) =
      program.items.flatMap (Item.contents Operand.content))
    (values : constants.map (fun constant => (constant.name, constant.value)) =
      program.constants.map Declaration.binding) :
    ∃ symbols, Symbols.validate code constants program.entry.text = .ok symbols ∧
      ∀ item ∈ program.items, ∀ operand ∈ item.operands,
        Resolves symbols operand.content operand.resolved := by
  have labels_eq := program.labelsOf_eq contents_eq
  have distinct : (program.labels.map (·.text)).Nodup :=
    List.Nodup.map (fun _ _ => Name.ext) (List.nodup_append.mp program.distinct).2.1
  refine ⟨⟨Symbols.labelsOf code, Constant.table constants⟩,
    (Symbols.validate_eq_ok_iff ..).mpr ⟨?_, ?_, ?_, rfl⟩, ?_⟩
  · rw [labels_eq]
    exact distinct
  · rw [labels_eq, List.forall_mem_map]
    intro name listed
    exact program.text_not_mem_names values listed
  · rw [labels_eq]
    exact List.mem_map_of_mem program.entered
  · intro item among operand listed
    apply Operand.resolves ?_ ?_ (program.declared item among operand listed)
    · intro declaration declared
      exact program.exists_constant values declared
    · intro name label
      rw [labels_eq, Symbols.constantTable_get?_eq_none_iff]
      exact ⟨List.mem_map_of_mem label, program.text_not_mem_names values label⟩

end Symbols

/-! ## Addresses -/

theorem Operand.width_contents
    (operands : List Operand) :
    ((Operand.contents Operand.resolved operands).map (·.width)).sum = operands.length := by
  cases operands with
  | nil => rfl
  | cons first later =>
      rw [Operand.contents, List.map_cons, List.sum_cons, width_resolved, List.length_cons,
        Nat.add_comm]
      congr 1
      induction later with
      | nil => rfl
      | cons operand later hypothesis =>
          have comma : Content.comma.width = 0 := rfl
          simp only [List.flatMap_cons, List.map_append, List.map_cons, List.map_nil,
            List.sum_append, List.sum_cons, List.sum_nil, hypothesis, comma, width_resolved,
            List.length_cons]
          omega

theorem Item.width_contents (item : Item) :
    ((item.contents Operand.resolved).map (·.width)).sum = item.size := by
  cases item with
  | label name => rfl
  | operation body =>
      have mnemonic : (Content.mnemonic body.instruction.mnemonic).width = 1 := rfl
      have lineEnd : Content.lineEnd.width = 0 := rfl
      simp only [Item.contents, List.cons_append, List.map_cons, List.map_append, List.map_nil,
        List.sum_cons, List.sum_append, List.sum_nil, Operand.width_contents, mnemonic, lineEnd,
        Item.size, Instruction.size, body.fitting.length_eq]
      omega

/-- The lines of items take the words of their operations. -/
theorem extent_eq
    (items : List Item)
    (tokens : List Token)
    (contents_eq : tokens.map (·.content) = items.flatMap (Item.contents Operand.resolved)) :
    Address.extent tokens = (items.map Item.size).sum := by
  have widths : Address.extent tokens = ((tokens.map (·.content)).map (·.width)).sum := by
    rw [List.map_map]
    rfl
  rw [widths, contents_eq]
  clear contents_eq widths
  induction items with
  | nil => rfl
  | cons item items hypothesis =>
      rw [List.flatMap_cons, List.map_append, List.sum_append, hypothesis, Item.width_contents,
        List.map_cons, List.sum_cons]

/-- What stands before the declaration of a label is what does not declare it. -/
theorem exists_eq_append_of_label
    {name : Name}
    (items : List Item)
    (listed : name ∈ items.filterMap (·.label?)) :
    ∃ after, items =
      items.takeWhile (fun item => item.label? != some name) ++ .label name :: after := by
  induction items with
  | nil => cases listed
  | cons item items hypothesis =>
      by_cases here : item.label? = some name
      · refine ⟨items, ?_⟩
        rw [List.takeWhile_cons_of_neg (by simp [here]), List.nil_append]
        cases item with
        | label other => cases here; rfl
        | operation body => cases here
      · have later : name ∈ items.filterMap (·.label?) := by
          obtain ⟨other, among, declares⟩ := List.mem_filterMap.mp listed
          obtain rfl | among := List.mem_cons.mp among
          · exact absurd declares here
          · exact List.mem_filterMap.mpr ⟨other, among, declares⟩
        obtain ⟨after, split⟩ := hypothesis later
        refine ⟨after, ?_⟩
        rw [List.takeWhile_cons_of_pos (by simpa using here), List.cons_append, ← split]

/-- The labels of a program are bound to their addresses. -/
theorem table_get?_address
    (program : Program)
    {tokens : List Token}
    (contents_eq : tokens.map (·.content) =
      program.items.flatMap (Item.contents Operand.resolved))
    {name : Name}
    (listed : name ∈ program.labels) :
    (Address.table tokens).get? name.text = some (program.address name : Int) := by
  obtain ⟨after, split⟩ := exists_eq_append_of_label program.items listed
  have fresh : name ∉ after.filterMap (·.label?) := by
    have distinct := (List.nodup_append.mp program.distinct).2.1
    rw [split, List.filterMap_append] at distinct
    have behind : (name :: after.filterMap (·.label?)).Nodup := (List.nodup_append.mp distinct).2.1
    exact (List.nodup_cons.mp behind).1
  rw [split, List.flatMap_append, List.flatMap_cons] at contents_eq
  obtain ⟨front, behind, rfl, front_eq, behind_eq⟩ := List.map_eq_append_iff.mp contents_eq
  obtain ⟨declaration, back, rfl, declared, back_eq⟩ := List.map_eq_cons_iff.mp behind_eq
  rw [address, ← extent_eq _ front front_eq]
  apply Address.table_get?_of_last declared
  -- Only the last declaration of a label counts, but a program declares each label once.
  intro token among repeated
  have labels : (back.map (·.content)).filterMap (·.label?) =
      (after.filterMap (·.label?)).map (·.text) := by
    rw [back_eq]
    exact label?_contents Operand.resolved Operand.label?_resolved after
  have text : name.text ∈ (back.map (·.content)).filterMap (·.label?) :=
    List.mem_filterMap.mpr ⟨token.content, List.mem_map_of_mem among, by rw [repeated]; rfl⟩
  rw [labels] at text
  obtain ⟨other, declares, same⟩ := List.mem_map.mp text
  rw [Name.ext same] at declares
  exact fresh declares

/-! ## Words -/

/-- An operand denotes its word where the labels have their addresses. -/
theorem Operand.denotes
    {addresses : Table Int}
    {address : Name → Nat}
    {constants : List Declaration}
    {labels : List Name}
    (bound : ∀ name ∈ labels, addresses.get? name.text = some (address name : Int))
    {operand : Operand}
    (declared : operand.Declared constants labels) :
    Encoder.Denotes addresses operand.resolved (operand.word address) := by
  cases operand with
  | label name => exact .name (bound name declared)
  | _ => exact .number _

theorem Operand.suits
    {kind : OperandKind}
    {operand : Operand}
    (address : Name → Nat)
    (fits : Operand.Fits kind operand) :
    Encoder.Suits kind (operand.word address) := by
  rintro rfl
  cases operand with
  | register slot =>
      have small := slot.index.isLt
      simp only [word]
      omega
  | _ => cases fits rfl

/-- The operands of an operation are encoded as their words. -/
theorem Operand.operands_of_contents
    {addresses : Table Int}
    {address : Name → Nat}
    {kinds : List OperandKind}
    {operands : List Operand}
    (fitting : List.Forall₂ Operand.Fits kinds operands)
    (tokens : List Token)
    (contents_eq : tokens.map (·.content) = Operand.contents Operand.resolved operands)
    (denotes : ∀ operand ∈ operands,
      Encoder.Denotes addresses operand.resolved (operand.word address)) :
    Encoder.Operands addresses kinds tokens (operands.map (Operand.word address)) := by
  induction fitting generalizing tokens with
  | nil =>
      rw [Operand.contents, List.map_eq_nil_iff] at contents_eq
      subst contents_eq
      exact .none
  | @cons kind operand kinds operands fits fitting hypothesis =>
      obtain ⟨token, tokens, rfl, content, contents_eq⟩ := List.map_eq_cons_iff.mp contents_eq
      rw [List.forall_mem_cons, ← content] at denotes
      cases fitting with
      | nil =>
          rw [List.flatMap_nil, List.map_eq_nil_iff] at contents_eq
          subst contents_eq
          exact .last denotes.1 (Operand.suits address fits)
      | cons next_fits fitting =>
          obtain ⟨comma, tokens, rfl, separator, contents_eq⟩ :=
            List.map_eq_cons_iff.mp contents_eq
          exact .more denotes.1 (Operand.suits address fits) separator
            (hypothesis tokens contents_eq denotes.2)

/-- The lines of items are encoded as the words of their operations. -/
theorem exists_statements
    {addresses : Table Int}
    {address : Name → Nat}
    (items : List Item)
    (tokens : List Token)
    (contents_eq : tokens.map (·.content) = items.flatMap (Item.contents Operand.resolved))
    (denotes : ∀ item ∈ items, ∀ operand ∈ item.operands,
      Encoder.Denotes addresses operand.resolved (operand.word address)) :
    ∃ statements, Encoder.Statements addresses tokens statements ∧
      Encoder.wordsOf statements = items.flatMap (Item.words address) := by
  induction items generalizing tokens with
  | nil =>
      rw [List.flatMap_nil, List.map_eq_nil_iff] at contents_eq
      subst contents_eq
      exact ⟨[], .nil, rfl⟩
  | cons item items hypothesis =>
      rw [List.forall_mem_cons] at denotes
      rw [List.flatMap_cons] at contents_eq
      cases item with
      | label name =>
          obtain ⟨label, tokens, rfl, declared, contents_eq⟩ := List.map_eq_cons_iff.mp contents_eq
          obtain ⟨ended, tokens, rfl, lineEnd, contents_eq⟩ := List.map_eq_cons_iff.mp contents_eq
          obtain ⟨statements, read, words_eq⟩ := hypothesis tokens contents_eq denotes.2
          exact ⟨statements, .label declared (.blank lineEnd read), words_eq⟩
      | operation body =>
          rw [Item.contents, List.append_assoc] at contents_eq
          obtain ⟨line, behind, rfl, line_eq, behind_eq⟩ := List.map_eq_append_iff.mp contents_eq
          obtain ⟨mnemonic, operands, rfl, named, operands_eq⟩ := List.map_eq_cons_iff.mp line_eq
          obtain ⟨ended, tokens, rfl, lineEnd, tokens_eq⟩ := List.map_eq_cons_iff.mp behind_eq
          obtain ⟨statements, read, words_eq⟩ := hypothesis tokens tokens_eq denotes.2
          have operands := Operand.operands_of_contents body.fitting operands operands_eq denotes.1
          have statement := Encoder.Statement.intro named body.known
            (Instruction.mnemonic_of_mem body.known).2.2.symm operands
          refine ⟨_, .line statement lineEnd read, ?_⟩
          rw [Encoder.wordsOf, List.flatMap_cons, ← Encoder.wordsOf, words_eq]
          rfl

/-! ## The stages together -/

/-- Code tokens that hold what the items resolve to are generated as the words of a program. -/
theorem exists_generate
    (program : Program)
    {tokens : List Token}
    (contents_eq : tokens.map (·.content) =
      program.items.flatMap (Item.contents Operand.resolved)) :
    ∃ code, Code.generate tokens = .ok code ∧ code.words = program.words ∧
      ∀ name ∈ program.labels, code.labels.get? name.text = some (program.address name : Int) := by
  have bound : ∀ name ∈ program.labels,
      (Address.table tokens).get? name.text = some (program.address name : Int) :=
    fun name listed => program.table_get?_address contents_eq listed
  obtain ⟨statements, read, words_eq⟩ :=
    exists_statements program.items tokens contents_eq fun item among operand listed =>
      Operand.denotes bound (program.declared item among operand listed)
  refine ⟨⟨Address.table tokens, Encoder.place 0 statements⟩, ?_, ?_, bound⟩
  · exact Outcome.bind_eq_ok_iff.mpr
      ⟨_, (Encoder.entriesOf_eq_ok_iff_statements ..).mpr ⟨statements, read, rfl⟩, rfl⟩
  · rw [Code.words, Encoder.allWords_place, words_eq]
    rfl

/-- No declaration and no item holds a marker. -/
theorem isMarker_contents
    (program : Program) :
    (∀ content ∈ program.constants.flatMap Declaration.contents, content.isMarker = false) ∧
      ∀ content ∈ program.items.flatMap (Item.contents Operand.content),
        content.isMarker = false := by
  have literals (literal : Literal) : literal.content.isMarker = false := by
    cases literal <;> rfl
  constructor
  · intro content listed
    obtain ⟨declaration, _, listed⟩ := List.mem_flatMap.mp listed
    simp only [Declaration.contents, List.mem_cons, List.not_mem_nil, or_false] at listed
    obtain rfl | rfl | rfl | rfl := listed
    · rfl
    · rfl
    · exact literals declaration.literal
    · rfl
  · intro content listed
    obtain ⟨item, _, listed⟩ := List.mem_flatMap.mp listed
    cases item with
    | label name =>
        simp only [Item.contents, List.mem_cons, List.not_mem_nil, or_false] at listed
        obtain rfl | rfl := listed <;> rfl
    | operation body =>
        simp only [Item.contents, List.cons_append, List.mem_cons, List.mem_append,
          List.not_mem_nil, or_false] at listed
        obtain rfl | listed | rfl := listed
        · rfl
        · obtain rfl | ⟨operand, rfl⟩ := Operand.eq_comma_or_of_mem_contents listed
          · rfl
          · cases operand with
            | literal given => exact literals given
            | _ => rfl
        · rfl

/-- The text of a program falls into its two sections. -/
theorem ofTokens_eq
    (program : Program)
    {first dataEnd second codeEnd : Token}
    {data code : List Token}
    (dataMarker : first.content = .marker "data")
    (dataEnded : dataEnd.content = .lineEnd)
    (data_eq : data.map (·.content) = program.constants.flatMap Declaration.contents)
    (codeMarker : second.content = .marker "code")
    (codeEnded : codeEnd.content = .lineEnd)
    (code_eq : code.map (·.content) = program.items.flatMap (Item.contents Operand.content)) :
    Layout.ofTokens (first :: dataEnd :: data ++ second :: codeEnd :: code) =
      .ok ⟨⟨"data", first.location.line, data⟩, ⟨"code", second.location.line, code⟩, true⟩ := by
  obtain ⟨plainData, plainCode⟩ := program.isMarker_contents
  rw [← data_eq, List.forall_mem_map] at plainData
  rw [← code_eq, List.forall_mem_map] at plainCode
  have unmarked {ended : Token} (lineEnd : ended.content = .lineEnd) :
      ended.content.isMarker = false := by rw [lineEnd]; rfl
  have divided := Layout.ofTokens_of_sections dataMarker codeMarker
    (List.forall_mem_cons.mpr ⟨unmarked dataEnded, plainData⟩)
    (List.forall_mem_cons.mpr ⟨unmarked codeEnded, plainCode⟩)
  rw [Section.trim, if_pos dataEnded, Section.trim, if_pos codeEnded] at divided
  exact divided

/-- Tokens that hold what a program holds go through all stages. -/
theorem exists_stages
    (program : Program)
    (terminatorWords : Int)
    {tokens : List Token}
    (contents_eq : tokens.map (·.content) = program.contents) :
    ∃ stages : Assembly.Stages ⟨program.entry.text, terminatorWords⟩ tokens,
      stages.code.words = program.words ∧
        stages.constants.map (fun constant => (constant.name, constant.value)) =
          program.constants.map Declaration.binding ∧
        ∀ name ∈ program.labels,
          stages.code.labels.get? name.text = some (program.address name : Int) := by
  obtain ⟨front, behind, rfl, front_eq, behind_eq⟩ := List.map_eq_append_iff.mp contents_eq
  obtain ⟨first, front, rfl, dataMarker, front_eq⟩ := List.map_eq_cons_iff.mp front_eq
  obtain ⟨dataEnd, data, rfl, dataEnded, data_eq⟩ := List.map_eq_cons_iff.mp front_eq
  obtain ⟨second, behind, rfl, codeMarker, behind_eq⟩ := List.map_eq_cons_iff.mp behind_eq
  obtain ⟨codeEnd, code, rfl, codeEnded, code_eq⟩ := List.map_eq_cons_iff.mp behind_eq
  obtain ⟨constants, declared, values⟩ := exists_constants program.constants data data_eq
  obtain ⟨symbols, validated, each⟩ := program.exists_symbols code_eq values
  have lines : List.Forall₂ (Resolves symbols)
      (program.items.flatMap (Item.contents Operand.content))
      (program.items.flatMap (Item.contents Operand.resolved)) :=
    List.rel_flatMap (List.forall₂_same.mpr fun item among =>
      item.forall₂_resolves (each item among)) fun _ _ resolves => resolves
  obtain ⟨resolved, resolves, resolved_eq⟩ := exists_resolveAll lines code code_eq
  obtain ⟨generated, generates, words_eq, bound⟩ := program.exists_generate resolved_eq
  have divided := program.ofTokens_eq dataMarker dataEnded data_eq codeMarker codeEnded code_eq
  have compiled :=
    (Constant.compile_eq_ok_iff data constants).mpr ⟨declared, program.nodup_names values⟩
  exact ⟨⟨_, constants, symbols, resolved, generated, divided, compiled, validated, resolves,
    generates⟩, words_eq, values, bound⟩

/-- The text of every program is assembled into the words of the program's own translation, and
its constants and labels have their values. -/
theorem exists_assembly_of_text
    (program : Program)
    (terminatorWords : Int)
    (file : String) :
    ∃ assembly,
      Assembly.ofSource ⟨program.entry.text, terminatorWords⟩ program.text file = .ok assembly ∧
        assembly.words = program.words ++ List.replicate terminatorWords.toNat 0 ∧
        assembly.constants.map (fun constant => (constant.name, constant.value)) =
          program.constants.map Declaration.binding ∧
        ∀ name ∈ program.labels,
          assembly.labels.get? name.text = some (program.address name : Int) := by
  obtain ⟨tokens, read, contents_eq⟩ := Token.exists_tokens_of_reads program.reads_text file
  obtain ⟨stages, words_eq, values, bound⟩ := program.exists_stages terminatorWords contents_eq
  refine ⟨stages.assembly.withSource program.text,
    (Assembly.ofSource_eq_ok_iff ..).mpr ⟨tokens, read, stages, rfl⟩, ?_, values, bound⟩
  rw [← words_eq]
  rfl

/-- A loop that prints three stars. -/
def countdown : Program :=
  let main : Name := { text := "main" }
  let loop : Name := { text := "loop" }
  let star : Declaration := ⟨{ text := "star" }, .character '*' (by decide)⟩
  let count : Declaration := ⟨{ text := "count" }, .number 3⟩
  let a : Operand := .register ⟨0, false⟩
  { constants := [star, count]
    items := [
      .label main,
      .operation {
        instruction := ⟨"SET", 1, [.register, .value]⟩
        operands := [a, .constant count] },
      .label loop,
      .operation { instruction := ⟨"OUT", 19, [.value]⟩, operands := [.constant star] },
      .operation {
        instruction := ⟨"ADD", 9, [.register, .value, .value]⟩
        operands := [a, a, .literal (.number (-1))] },
      .operation { instruction := ⟨"JT", 7, [.value, .target]⟩, operands := [a, .label loop] },
      .operation { instruction := ⟨"HALT", 0, []⟩, operands := [] }]
    entry := main
    distinct := by decide
    entered := by decide
    declared := by decide }

theorem exists_assembly_of_countdown :
    ∃ assembly,
      Assembly.ofSource {} (".data\nstar CHR '*'\ncount NUM 0x3\n.code\nmain:\nSET a, count\n" ++
        "loop:\nOUT star\nADD a, a, -0x1\nJT a, loop\nHALT\n") = .ok assembly ∧
      assembly.words = [1, 32768, 3, 19, 42, 9, 32768, 32768, 32767, 7, 32768, 3, 0, 0, 0] := by
  have text_eq : countdown.text =
      ".data\nstar CHR '*'\ncount NUM 0x3\n.code\nmain:\nSET a, count\n" ++
        "loop:\nOUT star\nADD a, a, -0x1\nJT a, loop\nHALT\n" := by
    decide +kernel
  have words_eq : countdown.words =
      [1, 32768, 3, 19, 42, 9, 32768, 32768, 32767, 7, 32768, 3, 0] := by
    decide +kernel
  obtain ⟨assembly, assembled, words, _⟩ := exists_assembly_of_text countdown 2 "<input>"
  rw [text_eq] at assembled
  rw [words_eq] at words
  exact ⟨assembly, assembled, words⟩

end Program
end WordAsm
