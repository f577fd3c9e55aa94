import WordAsm.Proofs.Token.Language

/-!
# Lines below a source

A source that can be read is read again in front of a line break and more text, since every lexeme
stops before a line break. The tokens that it has stay as they are, with their places: where the
source did not end its last line itself, the line break stands where the end of the source was.
-/

namespace WordAsm

/-! ## Cursors in a longer text -/

namespace Cursor

/-- The same position in a text that goes on. -/
def followedBy
    (cursor : Cursor)
    (more : List Char) : Cursor :=
  { cursor with rest := cursor.rest ++ more, lineText := cursor.lineText ++ more }

theorem next_followedBy
    {cursor : Cursor}
    (more : List Char)
    (inside : cursor.rest ≠ []) :
    (cursor.followedBy more).next = cursor.next.followedBy more := by
  obtain ⟨rest, line, column, lineText⟩ := cursor
  cases rest with
  | nil => exact absurd rfl inside
  | cons c rest =>
      simp only [next, followedBy, List.cons_append]
      split <;> rfl

theorem skip_followedBy
    {cursor : Cursor}
    {count : Nat}
    (more : List Char)
    (inside : count ≤ cursor.rest.length) :
    (cursor.followedBy more).skip count = (cursor.skip count).followedBy more := by
  induction count generalizing cursor with
  | zero => rfl
  | succ count hypothesis =>
      have nonempty : cursor.rest ≠ [] := List.ne_nil_of_length_pos (by omega)
      have left : count ≤ cursor.next.rest.length := by
        rw [rest_next, List.length_drop]
        omega
      rw [skip, next_followedBy more nonempty, hypothesis left, skip]

theorem line_le_skip
    (cursor : Cursor)
    (count : Nat) :
    cursor.line ≤ (cursor.skip count).line := by
  have step (cursor : Cursor) : cursor.line ≤ cursor.next.line := by
    unfold next
    split
    · exact Int.le_refl _
    · split
      · exact Int.le_add_one (Int.le_refl _)
      · exact Int.le_refl _
  induction count generalizing cursor with
  | zero => exact Int.le_refl _
  | succ count hypothesis => exact (step cursor).trans (hypothesis cursor.next)

end Cursor

/-! ## Lexemes in a longer text -/

namespace Lexeme

theorem stopsAt_lineFeed (lexeme : Lexeme) :
    lexeme.StopsAt (some '\n') := by
  cases lexeme <;> simp [StopsAt] <;> decide

/-- A lexeme is read again in front of a line break. -/
theorem scan_followedBy
    {c : Char}
    {text : List Char}
    {lexeme : Lexeme}
    {length : Nat}
    (more : List Char)
    (read : scan c text = .ok (lexeme, length)) :
    scan c (text ++ '\n' :: more) = .ok (lexeme, length) := by
  rw [scan_eq_ok_iff] at read ⊢
  obtain ⟨front, rest, text_eq, length_eq, spelled, stops⟩ := read
  refine ⟨front, rest ++ '\n' :: more, ?_, length_eq, spelled, ?_⟩
  · rw [← List.cons_append, text_eq, List.append_assoc]
  · cases rest with
    | nil => exact stopsAt_lineFeed lexeme
    | cons next rest => exact stops

/-- A text that is cut to its end is cut again in front of a line break, and the cutting goes on
behind it. -/
theorem runFrom_followedBy
    {file : String}
    {cursor stop : Cursor}
    {before : Array Placed}
    {lexemes : List Placed}
    (more : List Char)
    (complete : runFrom file cursor before = ⟨lexemes, stop, none⟩) :
    runFrom file (cursor.followedBy ('\n' :: more)) before =
        runFrom file (stop.followedBy ('\n' :: more)) lexemes.toArray ∧
      stop.rest = [] ∧ cursor.line ≤ stop.line := by
  fun_induction runFrom file cursor before with
  | case1 cursor before finished =>
      cases complete
      exact ⟨rfl, finished, Int.le_refl _⟩
  | case2 => cases complete
  | case3 cursor before c rest text lexeme length read _ hypothesis =>
      obtain ⟨run_eq, finished, lines⟩ := hypothesis complete
      refine ⟨?_, finished, (cursor.line_le_skip length).trans lines⟩
      have standing : (cursor.followedBy ('\n' :: more)).rest = c :: (rest ++ '\n' :: more) := by
        rw [Cursor.followedBy, text, List.cons_append]
      have inside : length ≤ cursor.rest.length := by
        obtain ⟨front, behind, text_eq, length_eq, _⟩ := leads_of_scan read
        rw [text, text_eq, length_eq, List.length_append]
        exact Nat.le_add_right ..
      rw [runFrom_of_scan standing (scan_followedBy more read), Cursor.skip_followedBy _ inside]
      exact run_eq

/-- The end of a source as a line break. -/
def ending (stop : Cursor) : Placed :=
  ⟨.lineBreak, stop.line, stop.column⟩

/-- The line break behind a text stands where the text ended. -/
theorem exists_runFrom_below
    {file : String}
    {cursor stop : Cursor}
    {before : Array Placed}
    {lexemes : List Placed}
    (more : List Char)
    (complete : runFrom file cursor before = ⟨lexemes, stop, none⟩)
    (started : 0 < cursor.line) :
    ∃ below : Cursor, below.rest = more ∧
      runFrom file (cursor.followedBy ('\n' :: more)) before =
        runFrom file below (lexemes.toArray.push (ending stop)) := by
  obtain ⟨longer, finished, lines⟩ := runFrom_followedBy more complete
  let seam := stop.followedBy ('\n' :: more)
  have standing : seam.rest = '\n' :: more := by
    change stop.rest ++ '\n' :: more = '\n' :: more
    rw [finished, List.nil_append]
  have placed_eq : lineBreak.place seam (seam.skip 1) = ending stop := by
    have counted : stop.line ≠ 0 := by omega
    rw [place, ending]
    exact congrArg (Placed.mk _ · _) (if_neg counted)
  refine ⟨seam.skip 1, ?_, ?_⟩
  · rw [Cursor.rest_skip, standing, List.drop_one, List.tail_cons]
  · rw [longer, runFrom_of_scan standing rfl, placed_eq]

end Lexeme

/-! ## Tokens in a longer text -/

namespace Token

/-- The context is always the one behind the contents read so far. -/
theorem Reading.foldl_step_behind
    (file : String)
    (placed : List Lexeme.Placed)
    (tokens : Array Token) :
    ∃ grown : Array Token,
      placed.foldl (step file) (.behind (tokens.toList.map (·.content)), tokens) =
        (.behind (grown.toList.map (·.content)), grown) := by
  induction placed generalizing tokens with
  | nil => exact ⟨tokens, rfl⟩
  | cons here placed hypothesis =>
      obtain ⟨added, step_eq, added_eq⟩ :=
        Reads.step_eq (.behind (tokens.toList.map (·.content))) file tokens here
      obtain ⟨grown, fold_eq⟩ := hypothesis (tokens ++ added)
      refine ⟨grown, ?_⟩
      rw [List.foldl_cons, step_eq, Context.after_behind, ← added_eq, ← List.map_append,
        ← Array.toList_append]
      exact fold_eq

/-- The end of a source is read as a line break. -/
theorem Reading.ofRun_complete
    (file : String)
    (lexemes : List Lexeme.Placed)
    (stop : Cursor) :
    (ofRun file ⟨lexemes, stop, none⟩).tokens =
      ((lexemes ++ [Lexeme.ending stop]).foldl (step file) ({}, #[])).2.toList := by
  rw [ofRun, List.foldl_append]
  generalize lexemes.foldl (step file) ({}, #[]) = state
  obtain ⟨context, tokens⟩ := state
  cases filled : context.lineHasTokens <;> simp [step, Lexeme.ending, Context.content?, filled]

/-- The tokens of a source come from its lexemes and a line break behind them. -/
theorem exists_run_of_ofSource
    {source file : String}
    {tokens : List Token}
    (read : ofSource source file = .ok tokens) :
    ∃ lexemes stop, Lexeme.runFrom file (.start source.toList 1) #[] = ⟨lexemes, stop, none⟩ ∧
      (lexemes ++ [Lexeme.ending stop]).foldl (Reading.step file) ({}, #[]) =
        (.behind (tokens.map (·.content)), tokens.toArray) := by
  rw [ofSource, Token.read] at read
  generalize Lexeme.runFrom file (.start source.toList 1) #[] = run at read
  obtain ⟨lexemes, stop, failure⟩ := run
  cases failure with
  | some failure => cases read
  | none =>
      refine ⟨lexemes, stop, rfl, ?_⟩
      obtain ⟨grown, fold_eq⟩ := Reading.foldl_step_behind file
        (lexemes ++ [Lexeme.ending stop]) #[]
      have tokens_eq : grown.toList = tokens := by
        have complete := Reading.ofRun_complete file lexemes stop
        rw [← Except.ok.inj read]
        exact (complete.trans (congrArg (·.2.toList) fold_eq)).symm
      rw [← tokens_eq]
      exact fold_eq

/-- What stands below a source is read behind its contents, and the tokens of the source stay. -/
theorem exists_tokens_of_below
    {source more file : String}
    {tokens : List Token}
    {contents : List Content}
    (read : ofSource source file = .ok tokens)
    (reading : Reads (.behind (tokens.map (·.content))) more.toList contents) :
    ∃ later, ofSource (source ++ "\n" ++ more) file = .ok (tokens ++ later) ∧
      later.map (·.content) = contents := by
  obtain ⟨lexemes, stop, run_eq, fold_eq⟩ := exists_run_of_ofSource read
  obtain ⟨seam, standing, longer⟩ :=
    Lexeme.exists_runFrom_below more.toList run_eq Int.zero_lt_one
  obtain ⟨placed, last, below_eq, meaning⟩ :=
    reading.exists_run file seam (lexemes.toArray.push (Lexeme.ending stop)) standing
  have whole_eq : Lexeme.runFrom file (.start (source ++ "\n" ++ more).toList 1) #[] =
      ⟨lexemes ++ [Lexeme.ending stop] ++ placed, last, none⟩ := by
    have text_eq : (source ++ "\n" ++ more).toList = source.toList ++ '\n' :: more.toList := by
      simp
    rw [text_eq]
    refine longer.trans ?_
    rw [below_eq, Array.toList_push]
  obtain ⟨context, later, later_eq, contents_eq⟩ := meaning tokens.toArray
  have below : (lexemes ++ [Lexeme.ending stop] ++ placed).foldl (Reading.step file) ({}, #[]) =
      (context, tokens.toArray ++ later) := by
    rw [List.foldl_append, fold_eq, later_eq]
  obtain ⟨ending, result_eq, ending_eq⟩ := Reading.exists_result_eq last below
  refine ⟨later.toList ++ ending, ?_, by rw [List.map_append, ending_eq, contents_eq]⟩
  rw [ofSource, Token.read, whole_eq, result_eq, Array.toList_append, List.append_assoc]

/-- A mnemonic and a name on a line of their own outside the data section. The name may turn out
to be a type word. -/
theorem reads_line
    {before : List Content}
    {mnemonic name : String}
    (ended : openLine before = [])
    (outside : openSection before ≠ some "data")
    (known : Lexeme.isName mnemonic = true)
    (capitals : ∀ c ∈ mnemonic.toList, c.isLower = false)
    (named : Lexeme.isName name = true)
    (free : ¬ IsRegisterLetter name) :
    Reads (.behind before) (mnemonic ++ " " ++ name ++ "\n").toList
      [.mnemonic mnemonic,
        if IsTypeWord name then .typeWord (String.ofList (name.toList.map Char.toUpper))
        else .symbol name,
        .lineEnd] := by
  let inner := before ++ [.mnemonic mnemonic]
  generalize operand_eq : (if IsTypeWord name then
    Content.typeWord (String.ofList (name.toList.map Char.toUpper)) else .symbol name) = operand
  have admissible : Admissible before (.mnemonic mnemonic) :=
    ⟨⟨by simp [ended], outside⟩, known, capitals⟩
  obtain ⟨lexeme, written, meant⟩ := admissible.exists_writtenAs
  have line_eq : openLine inner = openLine before ++ [.mnemonic mnemonic] :=
    openLine_concat before (by simp)
  have closed : ¬ OpensInstruction inner := by
    rintro ⟨labels, _⟩
    obtain ⟨_, same⟩ := labels (.mnemonic mnemonic) (by simp [line_eq])
    cases same
  have word : (Context.behind inner).content? (.word name) = some operand := by
    rw [isRegisterLetter_iff] at free
    rw [Context.content?, wordContent_of_not_opens closed, if_neg free, operand_eq]
  have inside : operand ≠ .lineEnd := by
    rw [← operand_eq]
    split <;> simp
  have ending : (Context.behind (inner ++ [operand])).content? .lineBreak = some .lineEnd := by
    simp [Context.content?, Context.behind, openLine_concat inner inside]
  have text_eq : (mnemonic ++ " " ++ name ++ "\n").toList =
      mnemonic.toList ++ ' ' :: (name.toList ++ (['\n'] ++ [])) := by
    simp
  rw [text_eq]
  refine .cons written.spelled (written.stopsAt (.inr ?_)) meant (.blank rfl ?_)
  · intro c first
    cases first
    exact ⟨rfl, by decide⟩
  · refine .cons (.word named) ?_ word ?_
    · intro c first
      cases first
      exact ⟨rfl, by decide⟩
    · exact .cons .lineBreak trivial ending (.nil (openLine_concat_lineEnd _))

end Token
end WordAsm
