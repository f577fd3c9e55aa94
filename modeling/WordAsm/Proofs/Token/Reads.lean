import WordAsm.Proofs.Lexeme.Grammar
import WordAsm.Token.Reading

/-!
# What a text reads as

A text is read lexeme by lexeme, and every lexeme gets its meaning from the context. The
relation here leaves out files, lines and columns, so that what a text reads as can be told
from its pieces.
-/

namespace WordAsm
namespace Lexeme

variable {file : String} {cursor : Cursor} {before : Array Placed}

theorem runFrom_of_rest_eq_nil
    (finished : cursor.rest = []) :
    runFrom file cursor before = ⟨before.toList, cursor, none⟩ := by
  rw [runFrom]
  split
  · rfl
  · next c rest text =>
      rw [finished] at text
      cases text

theorem runFrom_of_scan
    {c : Char}
    {rest : List Char}
    {lexeme : Lexeme}
    {length : Nat}
    (text : cursor.rest = c :: rest)
    (read : scan c rest = .ok (lexeme, length)) :
    runFrom file cursor before =
      runFrom file (cursor.skip length)
        (before.push (lexeme.place cursor (cursor.skip length))) := by
  rw [runFrom]
  split
  · next finished =>
      rw [text] at finished
      cases finished
  · next first remaining found =>
      rw [text] at found
      cases found
      split
      · next failed =>
          rw [read] at failed
          cases failed
      · next found =>
          rw [read] at found
          cases found
          rfl

end Lexeme

namespace Token

/-- What the end of a source adds: it ends a line that holds something. -/
def Context.closing (context : Context) : List Content :=
  if context.lineHasTokens then [.lineEnd] else []

/-- What a text reads as in a context. -/
inductive Reads : Context → List Char → List Content → Prop
  | stop {context : Context} :
      Reads context [] context.closing
  | step {context : Context} {c : Char} {tail rest : List Char} {lexeme : Lexeme}
      {contents : List Content} :
      Lexeme.scan c (tail ++ rest) = .ok (lexeme, tail.length + 1) →
      Reads (context.after lexeme) rest contents →
      Reads context (c :: (tail ++ rest)) ((context.content? lexeme).toList ++ contents)

namespace Reads

variable {context : Context} {text : List Char} {contents : List Content}

/-- Going over a lexeme leaves the rest of the text. -/
theorem rest_skip
    {cursor : Cursor}
    {c : Char}
    {tail rest : List Char}
    (standing : cursor.rest = c :: (tail ++ rest)) :
    (cursor.skip (tail.length + 1)).rest = rest := by
  rw [Cursor.rest_skip, standing, List.drop_succ_cons, List.drop_left]

/-- Giving a lexeme its meaning changes the context and adds a token for each content. -/
theorem step_eq
    (context : Context)
    (file : String)
    (tokens : Array Token)
    (placed : Lexeme.Placed) :
    ∃ added : Array Token,
      Reading.step file (context, tokens) placed = (context.after placed.lexeme, tokens ++ added) ∧
        added.toList.map (·.content) = (context.content? placed.lexeme).toList := by
  unfold Reading.step
  dsimp only
  cases context.content? placed.lexeme with
  | none => exact ⟨#[], by rw [Array.append_empty], rfl⟩
  | some content => exact ⟨#[⟨content, _⟩], congrArg _ Array.push_eq_append, rfl⟩

/-- The lexemes of a text are all cut, and their meanings are what the text reads as. -/
theorem exists_run
    (reading : Reads context text contents)
    (file : String)
    (cursor : Cursor)
    (before : Array Lexeme.Placed)
    (standing : cursor.rest = text) :
    ∃ placed stop,
      Lexeme.runFrom file cursor before = ⟨before.toList ++ placed, stop, none⟩ ∧
        ∀ tokens : Array Token, ∃ last, ∃ later : Array Token,
          placed.foldl (Reading.step file) (context, tokens) = (last, tokens ++ later) ∧
            later.toList.map (·.content) ++ last.closing = contents := by
  -- The run pushes lexemes onto those before it, and the meanings are then given from the first
  -- one on, so the tokens before them stay general.
  induction reading generalizing cursor before with
  | stop =>
      refine ⟨[], cursor, ?_, fun tokens => ⟨_, #[], by rw [Array.append_empty]; rfl, rfl⟩⟩
      rw [Lexeme.runFrom_of_rest_eq_nil standing, List.append_nil]
  | @step context c tail rest lexeme contents read _ hypothesis =>
      let here := lexeme.place cursor (cursor.skip (tail.length + 1))
      obtain ⟨placed, stop, run_eq, meaning⟩ :=
        hypothesis (cursor.skip (tail.length + 1)) (before.push here) (rest_skip standing)
      refine ⟨here :: placed, stop, ?_, fun tokens => ?_⟩
      · rw [Lexeme.runFrom_of_scan standing read, run_eq, Array.toList_push, List.append_assoc]
        rfl
      · obtain ⟨added, step_eq, added_eq⟩ := step_eq context file tokens here
        obtain ⟨last, later, fold_eq, later_eq⟩ := meaning (tokens ++ added)
        refine ⟨last, added ++ later, ?_, ?_⟩
        · rw [List.foldl_cons, step_eq, ← Array.append_assoc]
          exact fold_eq
        · rw [Array.toList_append, List.map_append, added_eq, List.append_assoc, later_eq]
          rfl

/-- What a text reads as does not depend on the blanks before it. -/
theorem of_dropWhile_isBlank
    (reading : Reads context text contents) :
    Reads context (text.dropWhile Lexeme.isBlank) contents := by
  cases reading with
  | stop => exact .stop
  | @step _ c tail rest lexeme contents read reading =>
      by_cases blank : Lexeme.isBlank c = true
      -- A blank is read with all blanks behind it, so its lexeme is the run that is dropped.
      · rw [List.dropWhile_cons_of_pos blank]
        rw [Lexeme.scan, if_pos blank] at read
        obtain ⟨rfl, lengths⟩ := Prod.mk.inj (Except.ok.inj read)
        have cut := List.takeWhile_append_dropWhile (p := Lexeme.isBlank) (l := tail ++ rest)
        obtain ⟨_, same⟩ := List.append_inj cut (Nat.succ.inj lengths)
        rw [same]
        exact reading
      · rw [List.dropWhile_cons_of_neg blank]
        exact .step read reading

/-- A way to write a lexeme is read as what the lexeme means where the lexeme stops. -/
theorem of_spelled
    {front rest : List Char}
    {lexeme : Lexeme}
    (spelled : Lexeme.Spelled front lexeme)
    (stops : lexeme.StopsAt rest.head?)
    (reading : Reads (context.after lexeme) rest contents) :
    Reads context (front ++ rest) ((context.content? lexeme).toList ++ contents) := by
  obtain ⟨c, tail, rfl, read⟩ := spelled.exists_scan stops
  exact .step read reading

/-- A text that is cut into lexemes to its end reads as something in every context. -/
theorem exists_of_runFrom
    {file : String}
    {cursor : Cursor}
    {before : Array Lexeme.Placed}
    (complete : (Lexeme.runFrom file cursor before).failure = none)
    (context : Context) :
    ∃ contents, Reads context cursor.rest contents := by
  fun_induction Lexeme.runFrom file cursor before generalizing context with
  | case1 cursor before finished =>
      rw [finished]
      exact ⟨context.closing, .stop⟩
  | case2 => cases complete
  | case3 cursor before c rest text lexeme length read _ hypothesis =>
      obtain ⟨front, behind, text_eq, length_eq, spelled, stops⟩ := Lexeme.leads_of_scan read
      obtain ⟨contents, reading⟩ := hypothesis complete (context.after lexeme)
      rw [Cursor.rest_skip, text, text_eq, length_eq, List.drop_left] at reading
      rw [text, text_eq]
      exact ⟨_, .of_spelled spelled stops reading⟩

/-- A blank adds nothing. -/
theorem blank
    {c : Char}
    (blank : Lexeme.isBlank c = true)
    (reading : Reads context text contents) :
    Reads context (c :: text) contents := by
  have read : Lexeme.scan c (text.takeWhile Lexeme.isBlank ++ text.dropWhile Lexeme.isBlank) =
      .ok (.blank, (text.takeWhile Lexeme.isBlank).length + 1) := by
    rw [List.takeWhile_append_dropWhile, Lexeme.scan, if_pos blank]
  have reading : Reads context
      (c :: (text.takeWhile Lexeme.isBlank ++ text.dropWhile Lexeme.isBlank)) contents :=
    .step read reading.of_dropWhile_isBlank
  rwa [List.takeWhile_append_dropWhile] at reading

end Reads

/-- A complete run ends its last line itself, at the place where it stops. -/
theorem Reading.result_ofRun
    {file : String}
    {lexemes : List Lexeme.Placed}
    {last : Context}
    {tokens : Array Token}
    (stop : Cursor)
    (fold_eq : lexemes.foldl (step file) ({}, #[]) = (last, tokens)) :
    (ofRun file ⟨lexemes, stop, none⟩).result =
      .ok (tokens.toList ++
        last.closing.map fun content => ⟨content, ⟨file, stop.line, stop.column⟩⟩) := by
  rw [ofRun, fold_eq, Context.closing]
  cases filled : last.lineHasTokens <;> simp [result, filled]

/-- What a complete run adds at its end. -/
theorem Reading.exists_result_eq
    {file : String}
    {lexemes : List Lexeme.Placed}
    {last : Context}
    {tokens : Array Token}
    (stop : Cursor)
    (fold_eq : lexemes.foldl (step file) ({}, #[]) = (last, tokens)) :
    ∃ ending, (ofRun file ⟨lexemes, stop, none⟩).result = .ok (tokens.toList ++ ending) ∧
      ending.map (·.content) = last.closing := by
  refine ⟨_, result_ofRun stop fold_eq, ?_⟩
  rw [List.map_map]
  exact List.map_id _

/-- The tokens of a source hold what its text reads as. -/
theorem exists_tokens_of_reads
    {source : String}
    {contents : List Content}
    (reading : Reads {} source.toList contents)
    (file : String) :
    ∃ tokens, ofSource source file = .ok tokens ∧ tokens.map (·.content) = contents := by
  obtain ⟨placed, stop, run_eq, meaning⟩ :=
    reading.exists_run file (.start source.toList 1) #[] rfl
  obtain ⟨last, later, fold_eq, contents_eq⟩ := meaning #[]
  rw [Array.empty_append] at fold_eq
  obtain ⟨ending, result_eq, ending_eq⟩ := Reading.exists_result_eq stop fold_eq
  refine ⟨later.toList ++ ending, ?_, by rw [List.map_append, ending_eq, contents_eq]⟩
  rw [ofSource, read, run_eq]
  exact result_eq

/-- A source can be read, and its tokens hold some contents. -/
def Yields
    (file source : String)
    (contents : List Content) : Prop :=
  ∃ tokens, ofSource source file = .ok tokens ∧ tokens.map (·.content) = contents

/-- The tokens of a source hold exactly what its text reads as. -/
theorem yields_iff_reads
    (file source : String)
    (contents : List Content) :
    Yields file source contents ↔ Reads {} source.toList contents := by
  refine ⟨?_, fun reading => exists_tokens_of_reads reading file⟩
  rintro ⟨tokens, read_eq, rfl⟩
  have complete : (Lexeme.runFrom file (.start source.toList 1) #[]).failure = none := by
    rw [ofSource, Reading.result] at read_eq
    split at read_eq
    · cases read_eq
    · next finished => exact finished
  obtain ⟨contents, reading⟩ := Reads.exists_of_runFrom complete {}
  obtain ⟨others, others_eq, contents_eq⟩ := exists_tokens_of_reads reading file
  rw [read_eq] at others_eq
  cases others_eq
  rw [contents_eq]
  exact reading

end Token
end WordAsm
