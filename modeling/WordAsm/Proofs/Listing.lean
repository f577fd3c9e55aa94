import Mathlib.Data.List.Forall2
import WordAsm.Proofs.Assembly.Stages
import WordAsm.Proofs.Constant.Declarations
import WordAsm.Proofs.Section
import WordAsm.Proofs.Text.Lines
import WordAsm.Proofs.Token.Lines

/-!
# The source lines of a listing

Every row of a listing belongs to a mnemonic of the source, in order, and has the number of the
line on which that mnemonic stands. The text of the row is looked up by this number among the lines
on paper, so it shows the right line where the lines on paper and those of the source agree.
-/

namespace WordAsm

/-! ## Entries and their mnemonics -/

/-- The mnemonics of a program are those before its sections and those of the sections. -/
theorem Section.openings_divide (tokens : List Token) :
    tokens.filterMap Token.opening? =
      (divide tokens).1.filterMap Token.opening? ++
        (divide tokens).2.flatMap (·.tokens.filterMap Token.opening?) := by
  have trimmed (tokens : List Token) :
      (trim tokens).filterMap Token.opening? = tokens.filterMap Token.opening? := by
    cases tokens with
    | nil => rfl
    | cons token tokens =>
        rw [trim]
        split
        · next ends => rw [List.filterMap_cons_none (by rw [Token.opening?, ends])]
        · rfl
  induction tokens with
  | nil => rfl
  | cons token tokens hypothesis =>
      cases content : token.content with
      | marker name =>
          rw [divide_of_marker content, List.filterMap_cons_none (by rw [Token.opening?, content]),
            hypothesis, List.flatMap_cons, trimmed]
          rfl
      | _ =>
          rw [divide_of_plain (by rw [content]; rfl), List.filterMap_cons, List.filterMap_cons,
            hypothesis]
          cases token.opening? <;> rfl

/-- Declarations hold no mnemonic. -/
theorem Constant.Declarations.openings_eq_nil
    {tokens : List Token}
    {constants : List Constant}
    (declarations : Declarations tokens constants) :
    tokens.filterMap Token.opening? = [] := by
  induction declarations with
  | nil => rfl
  | @cons first second third fourth _ _ _ _ _ named typed valued ended _ hypothesis =>
      have literal : third.opening? = none := by
        unfold Token.opening?
        generalize third.content = content at valued
        cases valued <;> rfl
      rw [List.filterMap_cons_none (by rw [Token.opening?, named]),
        List.filterMap_cons_none (by rw [Token.opening?, typed]),
        List.filterMap_cons_none literal, List.filterMap_cons_none (by rw [Token.opening?, ended]),
        hypothesis]

/-- Resolving keeps the mnemonics. -/
theorem Token.openings_of_resolveAll
    {symbols : Symbols}
    {sources resolved : List Token}
    (resolves : resolveAll symbols sources = .ok resolved) :
    resolved.filterMap opening? = sources.filterMap opening? := by
  have each := (resolveAll_eq_ok_iff ..).mp resolves
  clear resolves
  induction each with
  | nil => rfl
  | @cons source result sources resolved here _ hypothesis =>
      have same : result.opening? = source.opening? := by
        obtain ⟨resolves, located⟩ := here
        unfold opening?
        rw [located]
        generalize source.content = content at resolves
        generalize result.content = content at resolves
        cases resolves <;> rfl
      rw [List.filterMap_cons, List.filterMap_cons, hypothesis, same]

/-- The entries of an assembly belong to the mnemonics of its program, in order. -/
theorem Assembly.Stages.openings_eq
    {settings : Settings}
    {tokens : List Token}
    (stages : Stages settings tokens) :
    tokens.filterMap Token.opening? = stages.code.entries.map Entry.opening := by
  obtain ⟨divided, _⟩ := (Layout.ofTokens_eq_ok_iff ..).mp stages.divided
  obtain ⟨declarations, _⟩ := (Constant.compile_eq_ok_iff ..).mp stages.compiled
  rw [← Code.openings_of_generate stages.generated, Token.openings_of_resolveAll stages.resolves,
    Section.openings_divide, divided, Layout.inOrder]
  split <;> simp [declarations.openings_eq_nil]

/-- Mnemonics and entries that say the same in order belong together. -/
theorem Token.forall₂_of_openings_eq
    {tokens : List Token}
    {entries : List Entry}
    (openings_eq : tokens.filterMap opening? = entries.map Entry.opening) :
    List.Forall₂ (fun token entry => token.opening? = some entry.opening)
      (tokens.filter (·.opening?.isSome)) entries := by
  induction tokens generalizing entries with
  | nil =>
      rw [List.filterMap_nil, eq_comm, List.map_eq_nil_iff] at openings_eq
      rw [openings_eq]
      exact .nil
  | cons token tokens hypothesis =>
      cases opened : token.opening? with
      | none =>
          rw [List.filterMap_cons_none opened] at openings_eq
          rw [List.filter_cons_of_neg (by simp [opened])]
          exact hypothesis openings_eq
      | some opening =>
          rw [List.filterMap_cons_some opened, eq_comm, List.map_eq_cons_iff] at openings_eq
          obtain ⟨entry, entries, rfl, rfl, later⟩ := openings_eq
          rw [List.filter_cons_of_pos (by simp [opened])]
          exact .cons opened (hypothesis later.symm)

/-! ## Mnemonics and their lines -/

namespace Token

/-- Whether a mnemonic stands on a line with some text above: its word is part of the line, and its
place is that of the word. -/
def IsMnemonicOn
    (token : Token)
    (above line : List Char) : Prop :=
  ∃ left word right, line = left ++ (word ++ right) ∧
    token.content = .mnemonic (String.ofList (word.map Char.toUpper)) ∧
    token.location.line = above.count '\n' + 1 ∧ token.location.column = left.length + 1

/-- Only words are mnemonics, in capitals. -/
theorem Context.eq_word_of_content?
    {context : Context}
    {lexeme : Lexeme}
    {capitals : String}
    (meant : context.content? lexeme = some (.mnemonic capitals)) :
    ∃ name, lexeme = .word name ∧ capitals = String.ofList (name.toList.map Char.toUpper) := by
  cases lexeme with
  | word name =>
      simp only [content?, wordContent, Option.some.injEq] at meant
      split at meant
      · cases meant
        exact ⟨name, rfl, rfl⟩
      · split at meant
        · cases meant
        · split at meant <;> cases meant
  | lineBreak =>
      rw [content?] at meant
      split at meant <;> cases meant
  | _ => cases meant

/-- The span of a mnemonic covers its word. -/
theorem exists_word_of_mem_spansFrom
    {text : List Char}
    {pieces : List Lexeme.Piece}
    (cut : Lexeme.Cut [] text pieces)
    {context : Context}
    {before : List Char}
    {span : Span}
    {capitals : String}
    (listed : span ∈ spansFrom context before pieces)
    (mnemonic : span.content = .mnemonic capitals) :
    ∃ name rest, Lexeme.isName name = true ∧
      before ++ text = span.before ++ (name.toList ++ rest) ∧
      capitals = String.ofList (name.toList.map Char.toUpper) := by
  induction cut generalizing context before with
  | nil =>
      obtain ⟨content, among, rfl⟩ := List.mem_map.mp listed
      rw [Context.closing] at among
      split at among
      · cases List.mem_singleton.mp among
        cases mnemonic
      · cases among
  | @cons front rest lexeme pieces spelled _ _ hypothesis =>
      rw [spansFrom, List.mem_append] at listed
      obtain here | later := listed
      · obtain ⟨content, meant, rfl⟩ := List.mem_map.mp here
        cases mnemonic
        obtain ⟨name, rfl, capitals_eq⟩ :=
          Context.eq_word_of_content? (Option.mem_toList.mp meant)
        cases spelled with
        | word named => exact ⟨name, rest, named, rfl, capitals_eq⟩
      · rw [← List.append_assoc]
        exact hypothesis later

/-- A word without line feeds stands on a line. -/
theorem exists_isLine
    (before rest : List Char)
    {word : List Char}
    (unbroken : '\n' ∉ word) :
    ∃ above right below,
      Text.IsLine (before ++ (word ++ rest)) above
        (before.rtakeWhile (· != '\n') ++ (word ++ right)) below ∧
      above.count '\n' = before.count '\n' := by
  have inLine : ∀ c ∈ word, (c != '\n') = true := by
    intro c listed
    rw [bne_iff_ne]
    rintro rfl
    exact unbroken listed
  have isLine := Text.isLine_lineAround before (word ++ rest)
  rw [Text.lineAround, List.takeWhile_append_of_pos inLine] at isLine
  exact ⟨_, _, _, isLine, Text.count_rdropWhile before⟩

/-- Every mnemonic of a source stands on one of its lines. -/
theorem exists_line_of_mnemonic
    {source file : String}
    {tokens : List Token}
    {token : Token}
    (read : ofSource source file = .ok tokens)
    (listed : token ∈ tokens)
    (opened : token.opening?.isSome = true) :
    ∃ above line below, Text.IsLine source.toList above line below ∧ line ≠ [] ∧
      token.IsMnemonicOn above line := by
  obtain ⟨pieces, cut, rfl⟩ := (ofSource_eq_ok_iff ..).mp read
  obtain ⟨span, among, rfl⟩ := List.mem_map.mp listed
  obtain ⟨capitals, mnemonic⟩ : ∃ capitals, span.content = .mnemonic capitals := by
    rw [opening?, content_token] at opened
    split at opened
    · next name content => exact ⟨name, content⟩
    · cases opened
  obtain ⟨name, rest, named, source_eq, rfl⟩ := exists_word_of_mem_spansFrom cut among mnemonic
  rw [List.nil_append] at source_eq
  obtain ⟨above, right, below, isLine, above_eq⟩ :=
    exists_isLine span.before rest (Lexeme.lineFeed_not_mem_name named)
  rw [← source_eq] at isLine
  refine ⟨above, _, below, isLine, ?_, _, name.toList, right, rfl, mnemonic, ?_, rfl⟩
  · obtain ⟨c, letters, rfl, _⟩ := Lexeme.exists_of_isName named
    simp
  · rw [above_eq]
    rfl

end Token

/-! ## Rows -/

namespace Listing

/-- The text of a row is the line with its number exactly when that line is found on paper. -/
theorem sourceText_eq_iff
    {source : String}
    {above line below : List Char}
    {entry : Entry}
    (isLine : Text.IsLine source.toList above line below)
    (filled : line ≠ [])
    (numbered : entry.line = above.count '\n' + 1) :
    sourceText (Text.lines source).toArray entry = Text.strip (String.ofList line) ↔
      Text.IsShown above line := by
  obtain ⟨shown, found, shown_iff⟩ := isLine.exists_shown filled
  have positive : 0 < entry.line := by omega
  have index_eq : (entry.line - 1).toNat = above.count '\n' := by omega
  rw [sourceText, if_pos positive, index_eq, List.getElem?_toArray, Text.lines, found]
  exact shown_iff

/-- How the row of an entry belongs to a mnemonic of a source. It has the name and the number of the
line on which the mnemonic stands. It shows this line exactly when the line is found on paper under
its number, which is so for every line if the source has no stray ends of lines. -/
def BelongsTo
    (source : String)
    (lines : Array String)
    (token : Token)
    (entry : Entry) : Prop :=
  token.opening? = some entry.opening ∧
    ∃ above line below, Text.IsLine source.toList above line below ∧
      token.IsMnemonicOn above line ∧
      (sourceText lines entry = Text.strip (String.ofList line) ↔ Text.IsShown above line) ∧
      (Text.strayEnds source.toList = 0 → Text.IsShown above line)

/-- The rows of a listing belong to the mnemonics of the source, in order. -/
theorem rows_of_ofSource
    {settings : Settings}
    {source file : String}
    {assembly : Assembly}
    (assembled : Assembly.ofSource settings source file = .ok assembly) :
    ∃ tokens, Token.ofSource source file = .ok tokens ∧
      List.Forall₂ (BelongsTo source assembly.sourceLines.toArray)
        (tokens.filter (·.opening?.isSome)) assembly.entries := by
  obtain ⟨tokens, read, stages, rfl⟩ := (Assembly.ofSource_eq_ok_iff ..).mp assembled
  have standing : ∀ token ∈ tokens.filter (·.opening?.isSome),
      ∃ above line below, Text.IsLine source.toList above line below ∧ line ≠ [] ∧
        token.IsMnemonicOn above line := by
    intro token listed
    rw [List.mem_filter] at listed
    exact Token.exists_line_of_mnemonic read listed.1 listed.2
  have paired := (List.forall₂_and_left ..).mpr
    ⟨standing, Token.forall₂_of_openings_eq stages.openings_eq⟩
  refine ⟨tokens, read, paired.imp ?_⟩
  rintro token entry ⟨⟨above, line, below, isLine, filled, onLine⟩, opened⟩
  have numbered : entry.line = above.count '\n' + 1 := by
    obtain ⟨_, _, _, _, content, token_line, _⟩ := onLine
    rw [Token.opening?, content] at opened
    rw [← token_line]
    exact (congrArg Prod.snd (Option.some.inj opened)).symm
  exact ⟨opened, above, line, below, isLine, onLine, sourceText_eq_iff isLine filled numbered,
    isLine.isShown⟩

/-- A form feed in a comment moves the rows below it by a line. -/
theorem rows_of_formFeed :
    ∃ assembly tokens,
      Assembly.ofSource {} ".data\n.code\nmain: NOOP\n; a\x0cb\nHALT" = .ok assembly ∧
        Token.ofSource ".data\n.code\nmain: NOOP\n; a\x0cb\nHALT" "<input>" = .ok tokens ∧
        assembly.entries.map (sourceText assembly.sourceLines.toArray) = ["main: NOOP", "b"] ∧
        List.Forall₂
          (BelongsTo ".data\n.code\nmain: NOOP\n; a\x0cb\nHALT" assembly.sourceLines.toArray)
          (tokens.filter (·.opening?.isSome)) assembly.entries := by
  let assembly : Assembly := {
    words := [21, 0, 0, 0]
    labels := ⟨[("main", 0)]⟩
    entries := [⟨0, 3, "NOOP", [21]⟩, ⟨1, 5, "HALT", [0]⟩]
    sourceLines := [".data", ".code", "main: NOOP", "; a", "b", "HALT"] }
  have assembled : Assembly.ofSource {} ".data\n.code\nmain: NOOP\n; a\x0cb\nHALT" =
      .ok assembly := by
    decide +kernel
  obtain ⟨tokens, read, rows⟩ := rows_of_ofSource assembled
  exact ⟨assembly, tokens, assembled, read, by decide +kernel, rows⟩

end Listing
end WordAsm
