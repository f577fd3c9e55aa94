import WordAsm.Proofs.Program.Syntax
import WordAsm.Proofs.Text.Case

/-!
# The tokens of a program's text

The text of a program reads as its declarations, labels and operations, line by line. Within a
line the context stays the same, and every line ends where the next one can start.
-/

namespace WordAsm

open Token (Reads Content Context)

/-- The context at the start of a line of a section. -/
def Token.Context.lineStart (sectionName : String) : Context where
  sectionName := some sectionName

/-- The context behind the first word of a line of a section. -/
def Token.Context.inLine (sectionName : String) : Context where
  lineHasTokens := true
  awaitsMnemonic := false
  sectionName := some sectionName

@[simp] theorem Lexeme.delimits_cons
    (c : Char)
    (rest : List Char) :
    Delimits (c :: rest) ↔ isNameCharacter c = false ∧ c ≠ ':' := by
  simp [Delimits]

namespace Program

/-- What the line of a declaration holds. -/
def Declaration.contents (declaration : Declaration) : List Content :=
  [.symbol declaration.name.text, .typeWord declaration.literal.type.word,
    declaration.literal.content, .lineEnd]

/-- What a list of operands holds, given what stands for each of them. -/
def Operand.contents (meaning : Operand → Content) : List Operand → List Content
  | [] => []
  | first :: later => meaning first :: later.flatMap fun operand => [.comma, meaning operand]

/-- What the line of an item holds, given what stands for each operand. -/
def Item.contents (meaning : Operand → Content) : Item → List Content
  | .label name => [.label name.text, .lineEnd]
  | .operation body =>
      .mnemonic body.instruction.mnemonic :: Operand.contents meaning body.operands ++ [.lineEnd]

/-- What the text of a program holds. -/
def contents (program : Program) : List Content :=
  .marker "data" :: .lineEnd :: program.constants.flatMap Declaration.contents ++
    .marker "code" :: .lineEnd :: program.items.flatMap (Item.contents Operand.content)

section Lines

variable {context : Context} {sectionName : String} {rest : List Char} {contents : List Content}

/-- A line that holds something ends before the next line. -/
theorem reads_lineEnd
    (filled : context.lineHasTokens = true)
    (reading : Reads { context with lineHasTokens := false, awaitsMnemonic := true }
      rest contents) :
    Reads context ('\n' :: rest) (.lineEnd :: contents) := by
  refine Reads.spelled .lineEnd ?_ (.inl rfl) reading
  rw [Context.content?, if_pos filled]

/-- A section starts behind the line of its marker. -/
theorem reads_marker
    (named : Lexeme.isName sectionName = true)
    (reading : Reads (.lineStart sectionName) rest contents) :
    Reads context ('.' :: sectionName.toList ++ '\n' :: rest)
      (.marker sectionName :: .lineEnd :: contents) := by
  refine Reads.spelled (.marker named) rfl (.inr ?_) (reads_lineEnd rfl reading)
  simp [Lexeme.isNameCharacter]

/-- A word that is no type word is a register or a symbol where no mnemonic is expected. -/
theorem wordContent_of_untyped
    {name : String}
    (elsewhere : ¬ (context.awaitsMnemonic = true ∧ context.sectionName ≠ some "data"))
    (untyped : ConstantType.ofWord? (String.ofList (name.toList.map Char.toUpper)) = none) :
    context.wordContent name =
      if Machine.isRegisterName name then .register name else .symbol name := by
  rw [Context.wordContent, if_neg elsewhere, if_neg]
  rintro (typed | typed) <;>
    · rw [typed] at untyped
      exact absurd untyped (by decide)

theorem wordContent_name
    (name : Name)
    (elsewhere : ¬ (context.awaitsMnemonic = true ∧ context.sectionName ≠ some "data")) :
    context.wordContent name.text = .symbol name.text := by
  rw [wordContent_of_untyped elsewhere name.untyped, name.unregistered]
  rfl

theorem isName_letter (slot : Register) :
    Lexeme.isName (String.ofList [slot.letter]) = true := by
  obtain ⟨index, capital⟩ := slot
  revert index capital
  decide

theorem registerAddress?_letter (slot : Register) :
    Machine.registerAddress? (String.ofList [slot.letter]) =
      some (32768 + (slot.index : Nat) : Int) := by
  obtain ⟨index, capital⟩ := slot
  revert index capital
  decide

theorem wordContent_letter (slot : Register) :
    (Context.inLine sectionName).wordContent (String.ofList [slot.letter]) =
      .register (String.ofList [slot.letter]) := by
  rw [wordContent_of_untyped]
  · rw [Machine.isRegisterName, registerAddress?_letter]
    rfl
  · rintro ⟨⟨⟩, _⟩
  · obtain ⟨index, capital⟩ := slot
    revert index capital
    decide

/-- A content that is written as a lexeme without changing the context of the line. -/
theorem reads_inLine
    {content : Content}
    {lexeme : Lexeme}
    (written : content.WrittenAs lexeme)
    (meant : (Context.inLine sectionName).content? lexeme = some content)
    (same : (Context.inLine sectionName).after lexeme = .inLine sectionName)
    (delimited : Lexeme.Delimits rest)
    (reading : Reads (.inLine sectionName) rest contents) :
    Reads (.inLine sectionName) (content.spelling ++ rest) (content :: contents) := by
  refine Reads.spelled written meant (.inr delimited) ?_
  rw [same]
  exact reading

theorem reads_literal
    (literal : Literal)
    (delimited : Lexeme.Delimits rest)
    (reading : Reads (.inLine sectionName) rest contents) :
    Reads (.inLine sectionName) (literal.content.spelling ++ rest)
      (literal.content :: contents) := by
  cases literal with
  | number value => exact reads_inLine (.number value) rfl rfl delimited reading
  | character c small => exact reads_inLine (.character c) rfl rfl delimited reading

theorem reads_name
    (name : Name)
    (delimited : Lexeme.Delimits rest)
    (reading : Reads (.inLine sectionName) rest contents) :
    Reads (.inLine sectionName) (name.text.toList ++ rest) (.symbol name.text :: contents) := by
  refine reads_inLine (.symbol name.spelled) ?_ rfl delimited reading
  rw [Context.content?, wordContent_name]
  rintro ⟨⟨⟩, _⟩

/-- An operand is read back. -/
theorem reads_operand
    (operand : Operand)
    (delimited : Lexeme.Delimits rest)
    (reading : Reads (.inLine sectionName) rest contents) :
    Reads (.inLine sectionName) (operand.content.spelling ++ rest)
      (operand.content :: contents) := by
  cases operand with
  | register slot =>
      refine reads_inLine (.register (isName_letter slot)) ?_ rfl delimited reading
      rw [Context.content?, wordContent_letter]
      rfl
  | literal given => exact reads_literal given delimited reading
  | constant declaration => exact reads_name declaration.name delimited reading
  | label name => exact reads_name name delimited reading

/-- Operands behind the first one are read back, each with the comma before it. -/
theorem reads_later
    (later : List Operand)
    (delimited : Lexeme.Delimits rest)
    (reading : Reads (.inLine sectionName) rest contents) :
    Lexeme.Delimits
        ((later.flatMap fun operand => ',' :: ' ' :: operand.content.spelling) ++ rest) ∧
      Reads (.inLine sectionName)
        ((later.flatMap fun operand => ',' :: ' ' :: operand.content.spelling) ++ rest)
        ((later.flatMap fun operand => [.comma, operand.content]) ++ contents) := by
  induction later with
  | nil => exact ⟨delimited, reading⟩
  | cons operand later hypothesis =>
      obtain ⟨delimited, reading⟩ := hypothesis
      refine ⟨by simp [Lexeme.isNameCharacter], ?_⟩
      rw [List.flatMap_cons, List.flatMap_cons, List.append_assoc, List.append_assoc]
      refine reads_inLine .comma rfl rfl (by simp [Lexeme.isNameCharacter]) ?_
      exact (reads_operand operand delimited reading).blank rfl

/-- The operands of an operation are read back. -/
theorem reads_operands
    (operands : List Operand)
    (reading : Reads (.inLine sectionName) ('\n' :: rest) contents) :
    Reads (.inLine sectionName) (Operand.list operands ++ '\n' :: rest)
      (Operand.contents Operand.content operands ++ contents) := by
  cases operands with
  | nil => exact reading
  | cons first later =>
      have delimited : Lexeme.Delimits ('\n' :: rest) := by simp [Lexeme.isNameCharacter]
      obtain ⟨delimited, reading⟩ := reads_later later delimited reading
      rw [Operand.list, List.append_assoc]
      exact (reads_operand first delimited reading).blank rfl

/-- The line of an item is read back. -/
theorem reads_item
    (item : Item)
    (reading : Reads (.lineStart "code") rest contents) :
    Reads (.lineStart "code") (item.line ++ rest)
      (item.contents Operand.content ++ contents) := by
  cases item with
  | label name =>
      have ended : Reads (Context.after (.lineStart "code") (.label name.text)) ('\n' :: rest)
          (.lineEnd :: contents) := reads_lineEnd rfl reading
      have labelled := Reads.spelled (.label name.spelled name.unregistered) rfl
        (.inr (by simp [Lexeme.isNameCharacter])) ended
      rw [Item.line, List.append_assoc]
      rw [Content.spelling, List.append_assoc] at labelled
      exact labelled
  | operation body =>
      obtain ⟨named, capitals, _⟩ := Instruction.mnemonic_of_mem body.known
      have ended : Reads (.inLine "code") ('\n' :: rest) (.lineEnd :: contents) :=
        reads_lineEnd rfl reading
      have operands := reads_operands body.operands ended
      rw [Item.line, Item.contents, List.append_assoc, List.append_assoc, List.cons_append,
        List.append_assoc]
      refine Reads.spelled (.mnemonic named) ?_ (.inr ?_) operands
      · rw [Context.content?, Context.wordContent, Text.map_toUpper_eq_self capitals,
          String.ofList_toList]
        rfl
      · cases body.operands with
        | nil => simp [Operand.list, Lexeme.isNameCharacter]
        | cons first later => simp [Operand.list, Lexeme.isNameCharacter]

theorem reads_typeWord
    (type : ConstantType)
    (delimited : Lexeme.Delimits rest)
    (reading : Reads (.inLine sectionName) rest contents) :
    Reads (.inLine sectionName) (type.word.toList ++ rest) (.typeWord type.word :: contents) := by
  refine reads_inLine (.typeWord ?_) ?_ rfl delimited reading
  · cases type <;> decide
  · cases type <;> rfl

/-- The line of a declaration is read back. -/
theorem reads_declaration
    (declaration : Declaration)
    (reading : Reads (.lineStart "data") rest contents) :
    Reads (.lineStart "data") (declaration.line ++ rest) (declaration.contents ++ contents) := by
  have ended : Reads (.inLine "data") ('\n' :: rest) (.lineEnd :: contents) :=
    reads_lineEnd rfl reading
  have valued : Reads (.inLine "data")
      (' ' :: (declaration.literal.content.spelling ++ '\n' :: rest)) _ :=
    (reads_literal declaration.literal (by simp [Lexeme.isNameCharacter]) ended).blank rfl
  have typed : Reads (.inLine "data") (' ' :: (declaration.literal.type.word.toList ++
      ' ' :: (declaration.literal.content.spelling ++ '\n' :: rest))) _ :=
    (reads_typeWord _ (by simp [Lexeme.isNameCharacter]) valued).blank rfl
  have named : Reads (.lineStart "data") (declaration.name.text.toList ++ _) _ :=
    Reads.spelled (.symbol declaration.name.spelled)
      (congrArg some (wordContent_name declaration.name (by simp [Context.lineStart])))
      (.inr (by simp [Lexeme.isNameCharacter])) typed
  simpa [Declaration.line, Declaration.contents] using named

theorem reads_items
    (items : List Item) :
    Reads (.lineStart "code") (items.flatMap Item.line)
      (items.flatMap (Item.contents Operand.content)) := by
  induction items with
  | nil => exact .stop
  | cons item items hypothesis =>
      rw [List.flatMap_cons, List.flatMap_cons]
      exact reads_item item hypothesis

theorem reads_declarations
    (declarations : List Declaration)
    (reading : Reads (.lineStart "data") rest contents) :
    Reads (.lineStart "data") (declarations.flatMap Declaration.line ++ rest)
      (declarations.flatMap Declaration.contents ++ contents) := by
  induction declarations with
  | nil => exact reading
  | cons declaration declarations hypothesis =>
      rw [List.flatMap_cons, List.flatMap_cons, List.append_assoc, List.append_assoc]
      exact reads_declaration declaration hypothesis

end Lines

/-- The text of a program reads as what the program holds. -/
theorem reads_text (program : Program) :
    Reads {} program.text.toList program.contents := by
  have text_eq : program.text.toList =
      '.' :: "data".toList ++ '\n' :: (program.constants.flatMap Declaration.line ++
        ('.' :: "code".toList ++ '\n' :: program.items.flatMap Item.line)) := by
    unfold text
    simp
  have code : Reads (.lineStart "data") ('.' :: "code".toList ++ _) _ :=
    reads_marker (by decide) (reads_items program.items)
  rw [text_eq]
  exact reads_marker (by decide) (reads_declarations program.constants code)

end Program
end WordAsm
