import WordAsm.Proofs.Assembly.Renaming
import WordAsm.Proofs.Assembly.Stages

/-!
# Programs that differ in places only

Where tokens stand is for messages and listings. Programs with the same contents are assembled into
the same words with the same labels and constants, or fail for the same kind of reason, whatever
lines and columns they are written on. If the lines are the same too, so are the lines of the
instructions and of a failure.
-/

namespace WordAsm

namespace Assembly

/-- The same words, labels and constants, whatever lines they come from. -/
structure SameResults (first second : Assembly) : Prop where
  words : second.words = first.words
  labels : second.labels = first.labels
  constants : second.constantValues = first.constantValues

theorem SameResults.trans
    {first second third : Assembly}
    (here : SameResults first second)
    (there : SameResults second third) :
    SameResults first third :=
  ⟨there.words.trans here.words, there.labels.trans here.labels,
    there.constants.trans here.constants⟩

/-- The same results with the same instructions on the same lines. -/
structure SameOnLines (first second : Assembly) : Prop extends SameResults first second where
  entries : second.entries = first.entries

theorem SameOnLines.trans
    {first second third : Assembly}
    (here : SameOnLines first second)
    (there : SameOnLines second third) :
    SameOnLines first third :=
  ⟨here.toSameResults.trans there.toSameResults, there.entries.trans here.entries⟩

/-- Both assembled with the same results, or both failed for the same kind of reason. -/
def Agree : Except Failure Assembly → Except Failure Assembly → Prop :=
  Outcome.Parallel (fun failure other => other.kind = failure.kind) SameResults

theorem Agree.trans
    {first second third : Except Failure Assembly}
    (here : Agree first second)
    (there : Agree second third) :
    Agree first third := by
  cases here with
  | ok same =>
      cases there with
      | ok next => exact .ok (same.trans next)
  | error same =>
      cases there with
      | error next => exact .error (next.trans same)

end Assembly

theorem Table.rename_id
    {α : Type}
    (table : Table α) :
    table.rename id = table := by
  rw [rename]
  exact congrArg Table.mk (List.map_id _)

namespace Correspondence

/-- A correspondence that keeps all names relates every content to itself. -/
theorem contents_refl
    {c : Correspondence}
    (kept : c.rename = id)
    (content : Token.Content) :
    c.Contents content content := by
  have related := c.contents_rename content
  have unchanged : content.rename c.rename = content := by
    rw [kept]
    cases content <;> rfl
  rwa [unchanged] at related

/-- The correspondence that keeps all names and leaves open where tokens stand. -/
def anywhere : Correspondence :=
  ⟨id, Function.injective_id, fun _ _ => True⟩

theorem anywhere_tokens
    {first second : Token}
    (same : first.content = second.content) :
    anywhere.Tokens first second :=
  ⟨same ▸ contents_refl rfl first.content, trivial⟩

theorem forall₂_anywhere
    {first second : List Token}
    (same : first.map (·.content) = second.map (·.content)) :
    List.Forall₂ anywhere.Tokens first second := by
  have contents : List.Forall₂ Eq (first.map (·.content)) (second.map (·.content)) := by
    rw [List.forall₂_eq_eq_eq]
    exact same
  rw [List.forall₂_map_left_iff, List.forall₂_map_right_iff] at contents
  exact contents.imp fun _ _ => anywhere_tokens

theorem Tables.eq_of_anywhere
    {α : Type}
    {first second : Table α}
    (related : anywhere.Tables Eq first second) :
    second = first :=
  related.eq_rename.trans first.rename_id

theorem agree_of_parallel
    {first second : Except Failure Assembly}
    (parallel : Outcome.Parallel anywhere.Failures anywhere.Assemblies first second) :
    Assembly.Agree first second := by
  cases parallel with
  | ok related =>
      exact .ok ⟨related.words, related.labels.eq_of_anywhere,
        related.constantValues.eq_of_anywhere⟩
  | error related => exact .error related.kind

/-! ## The same lines -/

/-- The correspondence that keeps all names and leaves every token on its line. -/
def inPlace : Correspondence :=
  ofRenaming Function.injective_id

theorem Tables.eq_of_inPlace
    {α : Type}
    {first second : Table α}
    (related : inPlace.Tables Eq first second) :
    second = first :=
  related.eq_rename.trans first.rename_id

theorem entries_eq_of_inPlace
    {first second : List Entry}
    (related : List.Forall₂ inPlace.Entries first second) :
    second = first := by
  induction related with
  | nil => rfl
  | @cons here there _ _ same _ hypothesis =>
      obtain ⟨address, line, mnemonic, words⟩ := same
      have line : here.line = there.line := line
      obtain ⟨_, _, _, _⟩ := here
      obtain ⟨_, _, _, _⟩ := there
      cases address
      cases line
      cases mnemonic
      cases words
      rw [hypothesis]

/-- Tokens on the same lines are assembled into the same instructions on the same lines, or fail on
the same line. -/
theorem parallel_inPlace
    {first second : List Token}
    (settings : Settings)
    (related : List.Forall₂ inPlace.Tokens first second) :
    Outcome.Parallel Failure.Alike Assembly.SameOnLines (Assembly.ofTokens settings first)
      (Assembly.ofTokens settings second) := by
  have parallel := parallel_ofTokens settings related
  change Outcome.Parallel _ _ _ (Assembly.ofTokens settings second) at parallel
  generalize Assembly.ofTokens settings first = here at parallel
  generalize Assembly.ofTokens settings second = there at parallel
  cases parallel with
  | ok related =>
      exact .ok ⟨⟨related.words, related.labels.eq_of_inPlace,
        related.constantValues.eq_of_inPlace⟩, entries_eq_of_inPlace related.entries⟩
  | error related => exact .error ⟨related.kind, line?_eq_of_failures related⟩

end Correspondence

namespace Assembly

variable (settings : Settings)

/-- Tokens with the same contents are assembled alike. -/
theorem agree_ofTokens
    {first second : List Token}
    (same : first.map (·.content) = second.map (·.content)) :
    Agree (ofTokens settings first) (ofTokens settings second) :=
  Correspondence.agree_of_parallel
    (Correspondence.parallel_ofTokens settings (Correspondence.forall₂_anywhere same))

variable {settings} in
/-- The source of an assembly is none of its results. -/
theorem Agree.ofSource
    {first second file : String}
    {tokens others : List Token}
    (read : Token.ofSource first file = .ok tokens)
    (readOther : Token.ofSource second file = .ok others)
    (agree : Agree (ofTokens settings tokens) (ofTokens settings others)) :
    Agree (ofSource settings first file) (ofSource settings second file) := by
  rw [ofSource_of_read read, ofSource_of_read readOther]
  exact agree.map fun _ _ related => ⟨related.words, related.labels, related.constants⟩

/-- Sources that are read as tokens with the same contents, and to their ends or up to the same
kind of failure, are assembled alike. -/
theorem agree_ofSource
    {first second file : String}
    (contents : (Token.read first file).tokens.map (·.content) =
      (Token.read second file).tokens.map (·.content))
    (kinds : (Token.read second file).failure.map (·.kind) =
      (Token.read first file).failure.map (·.kind)) :
    Agree (ofSource settings first file) (ofSource settings second file) := by
  cases failed : (Token.read first file).failure with
  | none =>
      rw [failed, Option.map_none, Option.map_eq_none_iff] at kinds
      refine Agree.ofSource ?_ ?_ (agree_ofTokens settings contents)
      · rw [Token.ofSource, Token.Reading.result, failed]
      · rw [Token.ofSource, Token.Reading.result, kinds]
  | some failure =>
      rw [failed, Option.map_some, Option.map_eq_some_iff] at kinds
      obtain ⟨other, failedOther, kind⟩ := kinds
      rw [ofSource, ofSource, Token.ofSource, Token.ofSource, Token.Reading.result,
        Token.Reading.result, failed, failedOther]
      exact .error kind

variable {settings} in
/-- Sources that are read as corresponding tokens on the same lines are assembled alike. -/
theorem parallel_of_read
    {first second file other : String}
    {tokens others : List Token}
    (read : Token.ofSource first file = .ok tokens)
    (readOther : Token.ofSource second other = .ok others)
    (related : List.Forall₂ Correspondence.inPlace.Tokens tokens others) :
    Outcome.Parallel Failure.Alike SameOnLines (ofSource settings first file)
      (ofSource settings second other) := by
  rw [ofSource_of_read read, ofSource_of_read readOther]
  refine (Correspondence.parallel_inPlace settings related).map fun _ _ same => ?_
  exact ⟨⟨same.words, same.labels, same.constants⟩, same.entries⟩

/-- Sources that are read as corresponding tokens on the same lines, and to their ends or up to the
same failure, are assembled alike. -/
theorem parallel_ofSource
    {first second file other : String}
    (tokens : List.Forall₂ Correspondence.inPlace.Tokens (Token.read first file).tokens
      (Token.read second other).tokens)
    (failures : Option.Rel Failure.Alike (Token.read first file).failure
      (Token.read second other).failure) :
    Outcome.Parallel Failure.Alike SameOnLines (ofSource settings first file)
      (ofSource settings second other) := by
  cases failed : (Token.read first file).failure with
  | none =>
      cases failedOther : (Token.read second other).failure with
      | none =>
          refine parallel_of_read ?_ ?_ tokens
          · rw [Token.ofSource, Token.Reading.result, failed]
          · rw [Token.ofSource, Token.Reading.result, failedOther]
      | some partner =>
          rw [failed, failedOther] at failures
          cases failures
  | some failure =>
      cases failedOther : (Token.read second other).failure with
      | none =>
          rw [failed, failedOther] at failures
          cases failures
      | some partner =>
          rw [failed, failedOther] at failures
          rw [ofSource, ofSource, Token.ofSource, Token.ofSource, Token.Reading.result,
            Token.Reading.result, failed, failedOther]
          cases failures with
          | some alike => exact .error alike

end Assembly
end WordAsm
