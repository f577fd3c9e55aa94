import WordAsm.Proofs.Correspondence.Encoding
import WordAsm.Proofs.Outcome

/-!
# Renaming symbols

A program whose labels and constants get other names, different ones for different symbols, is
assembled into the same words. Its symbols keep their values and their order. If the program
cannot be assembled, neither can the renamed one, for the same kind of reason on the same line.
-/

namespace WordAsm

/-- Give a symbol that a content declares or refers to another name. -/
def Token.Content.rename (rename : String → String) : Content → Content
  | .label name => .label (rename name)
  | .symbol name => .symbol (rename name)
  | content => content

/-- Give the symbol of a token another name. -/
def Token.rename
    (rename : String → String)
    (token : Token) : Token :=
  { token with content := token.content.rename rename }

/-- Give the entry point another name. -/
def Settings.rename
    (rename : String → String)
    (settings : Settings) : Settings :=
  { settings with entryPoint := rename settings.entryPoint }

/-- Give the entries of a table other names. -/
def Table.rename
    {α : Type}
    (rename : String → String)
    (table : Table α) : Table α :=
  ⟨table.entries.map fun (name, value) => (rename name, value)⟩

namespace Correspondence

theorem contents_rename
    (c : Correspondence)
    (content : Token.Content) :
    c.Contents content (content.rename c.rename) := by
  cases content with
  | marker name => exact .marker name
  | label name => exact .label name
  | lineEnd => exact .lineEnd
  | comma => exact .comma
  | mnemonic name => exact .mnemonic name
  | typeWord name => exact .typeWord name
  | register name => exact .register rfl
  | symbol name => exact .symbol name
  | number value => exact .number value
  | character text => exact .character text

theorem Tables.eq_rename
    {α : Type}
    {c : Correspondence}
    {first second : Table α}
    (related : c.Tables Eq first second) :
    second = first.rename c.rename := by
  obtain ⟨entries⟩ := first
  obtain ⟨others⟩ := second
  change List.Forall₂ _ entries others at related
  rw [Table.rename, Table.mk.injEq]
  induction related with
  | nil => rfl
  | cons here _ hypothesis =>
      rw [List.map_cons, ← hypothesis]
      exact congrArg (· :: _) (Prod.ext here.1 here.2.symm)

/-- The correspondence that renames symbols and leaves every token on its line. -/
def ofRenaming
    {rename : String → String}
    (injective : Function.Injective rename) : Correspondence :=
  ⟨rename, injective, Eq⟩

variable {rename : String → String} {injective : Function.Injective rename}

variable (injective) in
theorem forall₂_rename (tokens : List Token) :
    List.Forall₂ (ofRenaming injective).Tokens tokens (tokens.map (·.rename rename)) := by
  rw [List.forall₂_map_right_iff, List.forall₂_same]
  intro token _
  exact ⟨(ofRenaming injective).contents_rename token.content, rfl⟩

theorem line?_eq_of_failures
    {first second : Failure}
    (related : (ofRenaming injective).Failures first second) :
    second.line? = first.line? := by
  have lines := related.line
  generalize first.line? = line at lines
  generalize second.line? = other at lines
  cases lines with
  | none => rfl
  | some same => exact congrArg some same.symm

end Correspondence

namespace Assembly

/-- Renaming the symbols of a program and its entry point, different symbols differently, changes
neither whether it is assembled nor its words. The labels and constants keep their order and their
values under the new names, and a failure keeps its kind and its line. -/
theorem ofTokens_rename
    {rename : String → String}
    (injective : Function.Injective rename)
    (settings : Settings)
    (tokens : List Token) :
    ((∃ renamed, ofTokens (settings.rename rename) (tokens.map (·.rename rename)) = .ok renamed) ↔
        ∃ assembly, ofTokens settings tokens = .ok assembly) ∧
      (∀ assembly, ofTokens settings tokens = .ok assembly →
        ∃ renamed, ofTokens (settings.rename rename) (tokens.map (·.rename rename)) = .ok renamed ∧
          renamed.words = assembly.words ∧
          renamed.labels = assembly.labels.rename rename ∧
          renamed.constantValues = assembly.constantValues.rename rename) ∧
      ∀ failure, ofTokens settings tokens = .error failure →
        ∃ other, ofTokens (settings.rename rename) (tokens.map (·.rename rename)) = .error other ∧
          other.kind = failure.kind ∧ other.line? = failure.line? := by
  have parallel := Correspondence.parallel_ofTokens settings
    (Correspondence.forall₂_rename injective tokens)
  refine ⟨parallel.exists_ok_iff, ?_, ?_⟩
  · intro assembly assembled
    obtain ⟨renamed, made, related⟩ := parallel.of_ok assembled
    exact ⟨renamed, made, related.words, related.labels.eq_rename,
      related.constantValues.eq_rename⟩
  · intro failure failed
    obtain ⟨other, made, related⟩ := parallel.of_error failed
    exact ⟨other, made, related.kind, Correspondence.line?_eq_of_failures related⟩

/-- A program and one with an undeclared name, both with a letter before every symbol. -/
theorem ofTokens_rename_of_prefixed :
    (∃ tokens renamed,
      Token.ofSource ".data\nk NUM 7\n.code\nmain: OUT k\nJMP main" "<input>" = .ok tokens ∧
      ofTokens { entryPoint := "xmain" } (tokens.map (·.rename ("x" ++ ·))) = .ok renamed ∧
      renamed.words = [19, 7, 6, 0, 0, 0] ∧ renamed.labels = ⟨[("xmain", 0)]⟩ ∧
      renamed.constantValues = ⟨[("xk", 7)]⟩) ∧
    ∃ tokens failure,
      Token.ofSource ".data\n.code\nmain: JMP end" "<input>" = .ok tokens ∧
      ofTokens { entryPoint := "xmain" } (tokens.map (·.rename ("x" ++ ·))) = .error failure ∧
      failure.kind = .fault .undeclaredSymbol ∧ failure.line? = some 3 := by
  have injective : Function.Injective ("x" ++ ·) := by
    intro first second same
    simpa using same
  have assembled : (Token.ofSource ".data\nk NUM 7\n.code\nmain: OUT k\nJMP main" "<input>" >>=
      ofTokens {}) =
      .ok {
        words := [19, 7, 6, 0, 0, 0]
        constants := [⟨"k", 7, 2, "<input>"⟩]
        labels := ⟨[("main", 0)]⟩
        entries := [⟨0, 4, "OUT", [19, 7]⟩, ⟨2, 5, "JMP", [6, 0]⟩] } := by
    decide +kernel
  have failed : (Token.ofSource ".data\n.code\nmain: JMP end" "<input>" >>= ofTokens {}) =
      .error (.program {
        cause := .undeclaredSymbol "end" []
        location := some { line := 3, column := 11 } }) := by
    decide +kernel
  constructor
  · obtain ⟨tokens, read, assembled⟩ := Outcome.bind_eq_ok_iff.mp assembled
    obtain ⟨renamed, made, words, labels, constants⟩ :=
      (ofTokens_rename injective {} tokens).2.1 _ assembled
    exact ⟨tokens, renamed, read, made, words, labels, constants⟩
  · obtain unread | ⟨tokens, read, failed⟩ := Outcome.bind_eq_error_iff.mp failed
    · exact absurd unread (by decide +kernel)
    · obtain ⟨other, made, kind, line⟩ := (ofTokens_rename injective {} tokens).2.2 _ failed
      exact ⟨tokens, other, read, made, kind, line⟩

end Assembly
end WordAsm
