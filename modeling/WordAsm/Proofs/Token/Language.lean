import Mathlib.Data.List.DropRight
import WordAsm.Proofs.Section
import WordAsm.Proofs.Text.Case
import WordAsm.Proofs.Token.Spelling

/-!
# The language of tokens

Which sequences of contents sources yield is told here without sources: every content must be
admissible behind those before it, and the last line must be ended. What a word may be depends on
the contents of its line and on the section, and these are all that the reader's context keeps.

Every sequence of the language is read back from its canonical text, and from every other text
that spells its contents with blanks between them.
-/

namespace WordAsm
namespace Token

/-- The contents since the last end of a line. -/
def openLine (before : List Content) : List Content :=
  before.rtakeWhile fun content => content ≠ .lineEnd

/-- The name of the latest section marker. -/
def openSection (before : List Content) : Option String :=
  (before.filterMap Content.marker?).getLast?

/-- Whether a word behind some contents names an instruction: its line holds nothing but labels
yet, and the section is not the data section. -/
def OpensInstruction (before : List Content) : Prop :=
  (∀ content ∈ openLine before, ∃ name, content = .label name) ∧
    openSection before ≠ some "data"

/-- Whether a name is a single letter from `a` to `h`, in either case. -/
def IsRegisterLetter (name : String) : Prop :=
  ∃ letter ∈ "abcdefghABCDEFGH".toList, name = String.ofList [letter]

/-- Whether a name is a type word, whatever the case of its letters. -/
def IsTypeWord (name : String) : Prop :=
  String.ofList (name.toList.map Char.toUpper) ∈ ["NUM", "CHR"]

instance decidableIsTypeWord (name : String) : Decidable (IsTypeWord name) :=
  inferInstanceAs (Decidable (_ ∈ _))

/-- Whether a content may stand behind others. -/
def Admissible
    (before : List Content) : Content → Prop
  | .marker name => Lexeme.isName name = true
  | .label name => Lexeme.isName name = true ∧ ¬ IsRegisterLetter name
  | .lineEnd => ∃ last ∈ before.getLast?, last ≠ .lineEnd
  | .comma => True
  | .mnemonic name =>
      OpensInstruction before ∧ Lexeme.isName name = true ∧ ∀ c ∈ name.toList, c.isLower = false
  | .typeWord name => ¬ OpensInstruction before ∧ name ∈ ["NUM", "CHR"]
  | .register name => ¬ OpensInstruction before ∧ IsRegisterLetter name
  | .symbol name =>
      ¬ OpensInstruction before ∧ Lexeme.isName name = true ∧ ¬ IsTypeWord name ∧
        ¬ IsRegisterLetter name
  | .number _ => True
  | .character text => ∃ c, text = String.ofList [c]

/-- A sequence of contents that a source can yield. -/
structure Readable (contents : List Content) : Prop where
  /-- Every content may stand behind those before it. -/
  admissible : ∀ before content after,
    contents = before ++ content :: after → Admissible before content
  /-- The last line is ended. -/
  ended : ∀ last ∈ contents.getLast?, last = .lineEnd

/-! ## The context behind some contents -/

theorem openLine_concat_lineEnd (before : List Content) :
    openLine (before ++ [.lineEnd]) = [] := by
  simp [openLine]

theorem openLine_concat
    (before : List Content)
    {content : Content}
    (inner : content ≠ .lineEnd) :
    openLine (before ++ [content]) = openLine before ++ [content] := by
  simp [openLine, inner]

/-- A line is open exactly behind a content that does not end one. -/
theorem openLine_ne_nil_iff (before : List Content) :
    openLine before ≠ [] ↔ ∃ last ∈ before.getLast?, last ≠ .lineEnd := by
  induction before using List.reverseRecOn with
  | nil => simp [openLine]
  | append_singleton before content _ =>
      by_cases ending : content = .lineEnd
      · simp [ending, openLine_concat_lineEnd]
      · simp [openLine_concat before ending, ending]

namespace Context

/-- The context behind some contents. -/
def behind (before : List Content) : Context where
  lineHasTokens := !(openLine before).isEmpty
  awaitsMnemonic := (openLine before).all fun content => content.label?.isSome
  sectionName := openSection before

theorem behind_nil : behind [] = {} := rfl

theorem behind_concat_lineEnd (before : List Content) :
    behind (before ++ [.lineEnd]) =
      { behind before with lineHasTokens := false, awaitsMnemonic := true } := by
  simp [behind, openLine_concat_lineEnd, openSection, Content.marker?]

theorem behind_concat
    (before : List Content)
    {content : Content}
    (inner : content ≠ .lineEnd) :
    behind (before ++ [content]) =
      ⟨true, (behind before).awaitsMnemonic && content.label?.isSome,
        content.marker?.or (behind before).sectionName⟩ := by
  have section_eq : openSection (before ++ [content]) =
      content.marker?.or (openSection before) := by
    rw [openSection, List.filterMap_append, List.getLast?_append]
    cases marked : content.marker? <;> simp [marked, openSection]
  simp [behind, openLine_concat before inner, section_eq]

/-- A word is no label, no marker and no end of a line. -/
theorem wordContent_plain
    (context : Context)
    (name : String) :
    context.wordContent name ≠ .lineEnd ∧ (context.wordContent name).label? = none ∧
      (context.wordContent name).marker? = none := by
  unfold wordContent
  dsimp only
  split_ifs <;> simp [Content.label?, Content.marker?]

/-- Going over a lexeme leads to the context behind the contents with the meaning of the lexeme
added. -/
theorem after_behind
    (before : List Content)
    (lexeme : Lexeme) :
    (behind before).after lexeme =
      behind (before ++ ((behind before).content? lexeme).toList) := by
  cases lexeme with
  | blank | comment => simp [after, content?]
  | lineBreak =>
      cases filled : (behind before).lineHasTokens with
      | true => simp [after, content?, filled, behind_concat_lineEnd]
      | false =>
          have empty : openLine before = [] := by simpa [behind] using filled
          simp [after, content?, behind, empty]
  | comma | number | character | label | marker =>
      simp [after, content?, behind_concat, Content.label?, Content.marker?]
  | word name =>
      obtain ⟨inner, unlabelled, unmarked⟩ := (behind before).wordContent_plain name
      simp [after, content?, behind_concat, inner, unlabelled, unmarked]

theorem opensInstruction_iff (before : List Content) :
    OpensInstruction before ↔
      (behind before).awaitsMnemonic = true ∧ (behind before).sectionName ≠ some "data" := by
  have labelled (content : Content) :
      content.label?.isSome = true ↔ ∃ name, content = .label name := by
    cases content <;> simp [Content.label?]
  simp [OpensInstruction, behind, labelled]

end Context

/-! ## From lexemes to contents -/

/-- A name in capitals is a name without small letters. -/
theorem isName_capitals
    {name : String}
    (named : Lexeme.isName name = true) :
    Lexeme.isName (String.ofList (name.toList.map Char.toUpper)) = true := by
  obtain ⟨c, letters, rfl, starts, characters⟩ := Lexeme.exists_of_isName named
  rw [List.forall_mem_cons] at characters
  rw [String.toList_ofList, Lexeme.isName, String.toList_ofList, List.map_cons]
  dsimp only
  rw [Lexeme.isNameStart_toUpper starts, Bool.true_and, List.all_map, List.all_eq_true]
  intro letter listed
  exact Lexeme.isNameCharacter_toUpper (characters.2 letter listed)

theorem isRegisterLetter_iff (name : String) :
    IsRegisterLetter name ↔ Machine.isRegisterName name = true :=
  (Machine.isRegisterName_iff name).symm

/-- Where no instruction starts, a word is a type word, a register or a symbol. -/
theorem wordContent_of_not_opens
    {before : List Content}
    (closed : ¬ OpensInstruction before)
    (name : String) :
    (Context.behind before).wordContent name =
      if IsTypeWord name then .typeWord (String.ofList (name.toList.map Char.toUpper))
      else if Machine.isRegisterName name then .register name
      else .symbol name := by
  rw [Context.opensInstruction_iff] at closed
  simp only [Context.wordContent, if_neg closed, IsTypeWord, List.mem_cons, List.not_mem_nil,
    or_false]

/-- What a name means behind some contents is admissible there. -/
theorem admissible_wordContent
    (before : List Content)
    {name : String}
    (named : Lexeme.isName name = true) :
    Admissible before ((Context.behind before).wordContent name) := by
  by_cases opens : OpensInstruction before
  · rw [Context.wordContent, if_pos ((Context.opensInstruction_iff before).mp opens)]
    refine ⟨opens, isName_capitals named, ?_⟩
    rw [String.toList_ofList, List.forall_mem_map]
    intro c _
    exact Text.isLower_toUpper c
  · rw [wordContent_of_not_opens opens]
    split_ifs with typed registered
    · exact ⟨opens, typed⟩
    · exact ⟨opens, (isRegisterLetter_iff name).mpr registered⟩
    · refine ⟨opens, named, typed, ?_⟩
      rwa [isRegisterLetter_iff]

/-- What a lexeme means behind some contents is admissible there. -/
theorem admissible_of_spelled
    {before : List Content}
    {front : List Char}
    {lexeme : Lexeme}
    {content : Content}
    (spelled : Lexeme.Spelled front lexeme)
    (meant : (Context.behind before).content? lexeme = some content) :
    Admissible before content := by
  cases spelled with
  | blank | comment => cases meant
  | lineBreak =>
      rw [Context.content?] at meant
      split at meant
      · next filled =>
          cases meant
          apply (openLine_ne_nil_iff before).mp
          simpa [Context.behind] using filled
      · cases meant
  | comma | number | negative =>
      cases meant
      trivial
  | marker named =>
      cases meant
      exact named
  | label named free =>
      cases meant
      refine ⟨named, ?_⟩
      rw [isRegisterLetter_iff, free]
      exact Bool.false_ne_true
  | word named =>
      cases meant
      exact admissible_wordContent before named
  | @character _ c =>
      cases meant
      exact ⟨c, rfl⟩

/-- An admissible content is written as a lexeme that means it again. -/
theorem Admissible.exists_writtenAs
    {before : List Content}
    {content : Content}
    (admissible : Admissible before content) :
    ∃ lexeme, content.WrittenAs lexeme ∧
      (Context.behind before).content? lexeme = some content := by
  have word {name : String} (meant : (Context.behind before).wordContent name = content) :
      (Context.behind before).content? (.word name) = some content := congrArg some meant
  cases content with
  | marker name => exact ⟨_, .marker admissible, rfl⟩
  | label name =>
      obtain ⟨named, free⟩ := admissible
      rw [isRegisterLetter_iff, Bool.not_eq_true] at free
      exact ⟨_, .label named free, rfl⟩
  | lineEnd =>
      refine ⟨_, .lineEnd, ?_⟩
      have filled : (Context.behind before).lineHasTokens = true := by
        simpa [Context.behind] using (openLine_ne_nil_iff before).mpr admissible
      rw [Context.content?, if_pos filled]
  | comma => exact ⟨_, .comma, rfl⟩
  | number value => exact ⟨_, .number value, rfl⟩
  | character text =>
      obtain ⟨c, rfl⟩ := admissible
      exact ⟨_, .character c, rfl⟩
  | mnemonic name =>
      obtain ⟨opens, named, capitals⟩ := admissible
      refine ⟨_, .mnemonic named, word ?_⟩
      rw [Context.wordContent, if_pos ((Context.opensInstruction_iff before).mp opens),
        Text.map_toUpper_eq_self capitals, String.ofList_toList]
  | typeWord name =>
      obtain ⟨closed, typed⟩ := admissible
      have written : ∀ word ∈ ["NUM", "CHR"], Lexeme.isName word = true ∧ IsTypeWord word ∧
          String.ofList (word.toList.map Char.toUpper) = word := by decide
      obtain ⟨named, upper, capitals⟩ := written name typed
      refine ⟨_, .typeWord named, word ?_⟩
      rw [wordContent_of_not_opens closed, if_pos upper, capitals]
  | register name =>
      obtain ⟨closed, registered⟩ := admissible
      have written : "abcdefghABCDEFGH".toList.all fun letter =>
          Lexeme.isName (String.ofList [letter]) ∧ ¬ IsTypeWord (String.ofList [letter]) := by
        decide
      obtain ⟨named, untyped⟩ : Lexeme.isName name = true ∧ ¬ IsTypeWord name := by
        obtain ⟨letter, listed, rfl⟩ := registered
        exact of_decide_eq_true (List.all_eq_true.mp written letter listed)
      rw [isRegisterLetter_iff] at registered
      refine ⟨_, .register named, word ?_⟩
      rw [wordContent_of_not_opens closed, if_neg untyped, if_pos registered]
  | symbol name =>
      obtain ⟨closed, named, untyped, free⟩ := admissible
      rw [isRegisterLetter_iff] at free
      refine ⟨_, .symbol named, word ?_⟩
      rw [wordContent_of_not_opens closed, if_neg untyped, if_neg free]

/-! ## Reading and writing the language -/

/-- Whether contents may follow others up to the end of a source. -/
def Continues : List Content → List Content → Prop
  | before, [] => openLine before = []
  | before, content :: contents =>
      Admissible before content ∧ Continues (before ++ [content]) contents

/-- What may follow nothing is the language. -/
theorem continues_iff
    (before contents : List Content) :
    Continues before contents ↔
      (∀ front content back, contents = front ++ content :: back →
        Admissible (before ++ front) content) ∧ openLine (before ++ contents) = [] := by
  induction contents generalizing before with
  | nil => simp [Continues]
  | cons content contents hypothesis =>
      rw [Continues, hypothesis, List.append_assoc, List.singleton_append]
      constructor
      · rintro ⟨first, later, ended⟩
        refine ⟨?_, ended⟩
        intro front other back split
        cases front with
        | nil =>
            cases split
            rwa [List.append_nil]
        | cons _ front =>
            cases split
            simpa using later front other back rfl
      · rintro ⟨each, ended⟩
        refine ⟨by simpa using each [] content contents rfl, ?_, ended⟩
        intro front other back split
        simpa using each (content :: front) other back (by rw [split, List.cons_append])

theorem readable_iff_continues (contents : List Content) :
    Readable contents ↔ Continues [] contents := by
  have ended_iff : openLine contents = [] ↔ ∀ last ∈ contents.getLast?, last = .lineEnd := by
    rw [← not_iff_not, ← ne_eq, openLine_ne_nil_iff]
    simp
  rw [continues_iff, List.nil_append, ended_iff]
  simp only [List.nil_append]
  exact ⟨fun readable => ⟨readable.admissible, readable.ended⟩, fun both => ⟨both.1, both.2⟩⟩

/-- What a text reads as behind some contents may follow them. -/
theorem Reads.continues
    {before : List Content}
    {text : List Char}
    {contents : List Content}
    (reading : Reads (.behind before) text contents) :
    Continues before contents := by
  generalize context_eq : Context.behind before = context at reading
  induction reading generalizing before with
  | stop =>
      subst context_eq
      rw [Context.closing]
      split
      · next filled =>
          refine ⟨(openLine_ne_nil_iff before).mp ?_, openLine_concat_lineEnd before⟩
          simpa [Context.behind] using filled
      · next empty =>
          rw [Continues]
          simpa [Context.behind] using empty
  | @step _ c tail rest lexeme contents read _ hypothesis =>
      subst context_eq
      have later := hypothesis (Context.after_behind before lexeme).symm
      obtain ⟨front, _, _, _, spelled, _⟩ := Lexeme.leads_of_scan read
      cases meant : (Context.behind before).content? lexeme with
      | none =>
          rw [meant, Option.toList_none, List.append_nil] at later
          exact later
      | some content =>
          rw [meant, Option.toList_some] at later
          exact ⟨admissible_of_spelled spelled meant, later⟩

/-- What a source yields belongs to the language. -/
theorem Yields.readable
    {file source : String}
    {contents : List Content}
    (yields : Yields file source contents) :
    Readable contents := by
  rw [yields_iff_reads, ← Context.behind_nil] at yields
  exact (readable_iff_continues contents).mpr yields.continues

/-- A content of the language is admissible where it stands. -/
theorem Readable.exists_admissible
    {contents : List Content}
    {content : Content}
    (readable : Readable contents)
    (listed : content ∈ contents) :
    ∃ before, Admissible before content := by
  obtain ⟨before, after, split⟩ := List.append_of_mem listed
  exact ⟨before, readable.admissible before content after split⟩

/-- The texts that spell contents one behind the other with blanks between them. No content but
the end of a line may run into what follows. -/
inductive Spaced : List Content → List Char → Prop
  | nil :
      Spaced [] []
  | cons {content : Content} {contents : List Content} {gap text : List Char} :
      (∀ c ∈ gap, Lexeme.isBlank c = true) →
      (content = .lineEnd ∨ Lexeme.Delimits (gap ++ text)) →
      Spaced contents text →
      Spaced (content :: contents) (content.spelling ++ (gap ++ text))

/-- The canonical text has a space behind every content but the end of a line. -/
theorem spaced_render (contents : List Content) :
    Spaced contents (render contents).toList := by
  rw [render, String.toList_ofList]
  induction contents with
  | nil => exact .nil
  | cons content contents hypothesis =>
      rw [List.flatMap_cons]
      by_cases ending : content = .lineEnd
      · subst ending
        exact @Spaced.cons _ _ [] _ (by simp) (.inl rfl) hypothesis
      · have rendered : content.render = content.spelling ++ [' '] := by
          cases content with
          | lineEnd => exact absurd rfl ending
          | _ => rfl
        rw [rendered, List.append_assoc]
        refine .cons (by simp [Lexeme.isBlank]) (.inr ?_) hypothesis
        rintro c ⟨⟩
        exact ⟨rfl, by decide⟩

theorem Reads.blanks
    {context : Context}
    {gap text : List Char}
    {contents : List Content}
    (blank : ∀ c ∈ gap, Lexeme.isBlank c = true)
    (reading : Reads context text contents) :
    Reads context (gap ++ text) contents := by
  induction gap with
  | nil => exact reading
  | cons c gap hypothesis =>
      rw [List.forall_mem_cons] at blank
      exact (hypothesis blank.2).blank blank.1

/-- Nothing is added behind a line that is ended. -/
theorem Reads.nil
    {before : List Content}
    (ended : openLine before = []) :
    Reads (.behind before) [] [] := by
  have closing_eq : (Context.behind before).closing = [] := by
    simp [Context.closing, Context.behind, ended]
  have stopped : Reads (.behind before) [] (Context.behind before).closing := .stop
  rwa [closing_eq] at stopped

/-- A lexeme is read as what it means, and the rest behind it. -/
theorem Reads.cons
    {before contents : List Content}
    {front rest : List Char}
    {lexeme : Lexeme}
    {content : Content}
    (spelled : Lexeme.Spelled front lexeme)
    (stops : lexeme.StopsAt rest.head?)
    (meant : (Context.behind before).content? lexeme = some content)
    (reading : Reads (.behind (before ++ [content])) rest contents) :
    Reads (.behind before) (front ++ rest) (content :: contents) := by
  have after_eq := Context.after_behind before lexeme
  rw [meant, Option.toList_some] at after_eq
  have read := Reads.of_spelled spelled stops (after_eq ▸ reading)
  rwa [meant] at read

/-- What may follow some contents is read back behind them from every text that spells it. -/
theorem Spaced.reads
    {contents : List Content}
    {text : List Char}
    (spaced : Spaced contents text)
    {before : List Content}
    (continues : Continues before contents) :
    Reads (.behind before) text contents := by
  induction spaced generalizing before with
  | nil => exact .nil continues
  | cons blank delimited _ hypothesis =>
      obtain ⟨admissible, later⟩ := continues
      obtain ⟨lexeme, written, meant⟩ := admissible.exists_writtenAs
      refine .cons written.spelled (written.stopsAt delimited) meant ?_
      exact (hypothesis later).blanks blank

/-- The sequences of contents that sources yield are exactly the language. Each of them is read
back from its canonical text, and from every text that spells its contents with blanks between
them. -/
theorem readable_iff_yields
    (file : String)
    (contents : List Content) :
    ((∃ source, Yields file source contents) ↔ Readable contents) ∧
      (Readable contents ↔ Yields file (render contents) contents) ∧
      (Readable contents ↔
        ∀ text, Spaced contents text.toList → Yields file text contents) := by
  have complete {text : String} (readable : Readable contents)
      (spaced : Spaced contents text.toList) : Yields file text contents := by
    rw [yields_iff_reads, ← Context.behind_nil]
    exact spaced.reads ((readable_iff_continues contents).mp readable)
  have canonical := spaced_render contents
  refine ⟨⟨?_, ?_⟩, ⟨?_, Yields.readable⟩, ⟨?_, ?_⟩⟩
  · rintro ⟨source, yields⟩
    exact yields.readable
  · intro readable
    exact ⟨render contents, complete readable canonical⟩
  · intro readable
    exact complete readable canonical
  · intro readable text spaced
    exact complete readable spaced
  · intro all
    exact (all _ canonical).readable

end Token
end WordAsm
