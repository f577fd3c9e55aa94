import WordAsm.Proofs.Text.Lines
import WordAsm.Proofs.Token.Failures
import WordAsm.Proofs.Token.Language

/-!
# Where a fault of a source stands

A source that cannot be read is cut into lexemes up to a place where no lexeme can be read. The
fault is found there or some characters further on, in any case inside the source: its line is the
line of the source with its number, and its column is one of that line or the one behind it. What is
read before the fault is what the text before that place is read as, except that a text that stops
within a line ends the line itself.
-/

namespace WordAsm

/-! ## The line of a cursor -/

namespace Cursor

/-- Whether a cursor behind some text holds the text from the start of its line on. -/
def HoldsLine
    (cursor : Cursor)
    (before : List Char) : Prop :=
  cursor.lineText = before.rtakeWhile (· != '\n') ++ cursor.rest

theorem holdsLine_start
    (source : List Char)
    (line : Int) :
    (start source line).HoldsLine [] :=
  rfl

theorem HoldsLine.next
    {cursor : Cursor}
    {before rest : List Char}
    {c : Char}
    (holds : cursor.HoldsLine before)
    (standing : cursor.rest = c :: rest) :
    cursor.next.HoldsLine (before ++ [c]) := by
  rw [HoldsLine, standing] at holds
  unfold HoldsLine Cursor.next
  rw [standing]
  by_cases feed : c = '\n'
  · simp [feed]
  · simp [feed, holds]

theorem HoldsLine.skip
    {cursor : Cursor}
    {before front rest : List Char}
    (holds : cursor.HoldsLine before)
    (standing : cursor.rest = front ++ rest) :
    (cursor.skip front.length).HoldsLine (before ++ front) :=
  skip_induction HoldsLine.next holds standing

theorem HoldsLine.currentLine_eq
    {cursor : Cursor}
    {before : List Char}
    (holds : cursor.HoldsLine before) :
    cursor.currentLine = String.ofList (Text.lineAround before cursor.rest) := by
  have inLine : ∀ c ∈ before.rtakeWhile (· != '\n'), (c != '\n') = true := by
    intro c listed
    exact @List.mem_rtakeWhile_imp _ (· != '\n') _ _ listed
  rw [currentLine, holds, List.takeWhile_append_of_pos inLine]
  rfl

/-- Nothing is left to go over at the end. -/
theorem skip_of_nil
    {cursor : Cursor}
    (finished : cursor.rest = [])
    (count : Nat) :
    cursor.skip count = cursor := by
  induction count with
  | zero => rfl
  | succ count hypothesis =>
      have stays : cursor.next = cursor := by
        rw [next, finished]
      rw [skip, stays, hypothesis]

/-- Going over a number of characters leads behind as many as there are. -/
theorem skip_eq_skip_take
    (cursor : Cursor)
    (count : Nat) :
    cursor.skip count = cursor.skip (cursor.rest.take count).length := by
  -- Only an offset behind the end of the source has to be cut down.
  obtain enough | short := Nat.le_total count cursor.rest.length
  · rw [List.length_take_of_le enough]
  · rw [List.take_of_length_le short]
    obtain ⟨more, rfl⟩ := Nat.exists_eq_add_of_le short
    have finished : (cursor.skip cursor.rest.length).rest = [] := by
      rw [rest_skip, List.drop_length]
    rw [← skip_skip, skip_of_nil finished]

end Cursor

/-! ## The text before a fault -/

namespace Lexeme

theorem stopsAt_none (lexeme : Lexeme) :
    lexeme.StopsAt none := by
  cases lexeme <;> simp [StopsAt]

/-- A text that is cut in front of another one is cut alike by itself. -/
theorem Cut.alone
    {text rest : List Char}
    {pieces : List Piece}
    (cut : Cut rest text pieces) :
    Cut [] text pieces := by
  induction cut with
  | nil => exact .nil
  | @cons front text lexeme pieces spelled stops _ hypothesis =>
      refine .cons spelled ?_ hypothesis
      cases text with
      | nil => exact lexeme.stopsAt_none
      | cons c text => exact stops

/-- Where a malformed lexeme behind some text is reported: some characters further on, with the line
there. -/
theorem Error.failure_eq
    {start : Cursor}
    {before : List Char}
    (behind : start.IsBehind before)
    (holds : start.HoldsLine before)
    (file : String)
    (cause : Cause)
    (offset : Nat) :
    (Error.malformed cause offset).failure file start =
      .ofFault {
        cause
        location := some (.behind file (before ++ start.rest.take offset))
        sourceLine := some (String.ofList
          (Text.lineAround (before ++ start.rest.take offset) (start.rest.drop offset))) } := by
  have standing : start.rest = start.rest.take offset ++ start.rest.drop offset :=
    (List.take_append_drop ..).symm
  have reached := behind.skip standing
  have line_eq := (holds.skip standing).currentLine_eq
  rw [← Cursor.skip_eq_skip_take] at reached line_eq
  rw [Cursor.rest_skip] at line_eq
  rw [failure, line_eq, reached.line, reached.column]
  rfl

/-- A place in a source where no lexeme can be read: the text before it is cut into lexemes, and
what follows is malformed for a cause. -/
def FailsBehind
    (before failing : List Char)
    (cause : Cause) : Prop :=
  ∃ pieces c rest offset, Cut failing before pieces ∧ failing = c :: rest ∧
    scan c rest = .error (.malformed cause offset)

end Lexeme

namespace Token

/-! ## What is read before a fault -/

/-- The lexemes of a text lead to the context behind their contents. -/
theorem Context.afterAll_behind
    (before : List Content)
    (pieces : List Lexeme.Piece) :
    (behind before).afterAll pieces = behind (before ++ (behind before).contentsOf pieces) := by
  induction pieces generalizing before with
  | nil =>
      rw [contentsOf, List.append_nil]
      rfl
  | cons piece pieces hypothesis =>
      have later := hypothesis (before ++ ((behind before).content? piece.lexeme).toList)
      rw [← after_behind, List.append_assoc] at later
      exact later

/-- What the end of a source adds behind some tokens: it ends a line that holds something. -/
def endingBehind
    (file : String)
    (before : List Char)
    (tokens : List Token) : List Token :=
  if openLine (tokens.map (·.content)) = [] then [] else [⟨.lineEnd, .behind file before⟩]

/-- A text that is cut in front of another one is read by itself as the tokens of its lexemes and
the end of its last line. -/
theorem read_of_cut_alone
    {before rest : List Char}
    {pieces : List Lexeme.Piece}
    (cut : Lexeme.Cut rest before pieces)
    (file : String) :
    read (String.ofList before) file =
      ⟨tokensBehind file {} [] pieces ++
        endingBehind file before (tokensBehind file {} [] pieces), none⟩ := by
  have context_eq := Context.afterAll_behind [] pieces
  rw [Context.behind_nil, List.nil_append] at context_eq
  have whole : Lexeme.Cut [] (String.ofList before).toList pieces := by
    rw [String.toList_ofList]
    exact cut.alone
  rw [read_of_cut_nil whole, spansOf, map_token_spansFrom cut, context_eq, endingBehind,
    map_content_tokensBehind, Context.closing, Context.behind]
  cases openLine (Context.contentsOf {} pieces) <;> rfl

/-- A fault of a source is found where no lexeme can be read behind a part that is cut. -/
theorem exists_cut_of_fault
    {source file : String}
    {fault : Fault}
    (failed : (read source file).failure = some (.program fault)) :
    ∃ before pieces c rest offset, source.toList = before ++ c :: rest ∧
      Lexeme.Cut (c :: rest) before pieces ∧
      Lexeme.scan c rest = .error (.malformed fault.cause offset) ∧
      (read source file).tokens = tokensBehind file {} [] pieces ∧
      fault.location = some (.behind file (before ++ (c :: rest).take offset)) ∧
      fault.sourceLine = some (String.ofList
        (Text.lineAround (before ++ (c :: rest).take offset) ((c :: rest).drop offset))) := by
  obtain ⟨before, pieces, rest, source_eq, cut, ended⟩ := Lexeme.exists_cut source.toList
  obtain rfl | ⟨c, tail, error, rfl, refused⟩ := ended
  · rw [List.append_nil] at source_eq
    subst source_eq
    rw [read_of_cut_nil cut] at failed
    cases failed
  · have behind := (Cursor.isBehind_start source.toList).skip source_eq
    have holds := (Cursor.holdsLine_start source.toList 1).skip source_eq
    have reached : ((Cursor.start source.toList 1).skip before.length).rest = c :: tail := by
      rw [Cursor.rest_skip, Cursor.start, source_eq, List.drop_left]
    rw [read_of_cut_error cut source_eq refused] at failed ⊢
    cases error with
    -- A numeral beyond the decimal limit is no fault of the program.
    | longNumeral count => cases failed
    | malformed cause offset =>
        have writable : cause.isWritable = true := Lexeme.hasReason_of_scan refused
        rw [Lexeme.Error.failure_eq behind holds, reached, List.nil_append,
          Failure.ofFault_of_writable writable] at failed
        cases failed
        exact ⟨before, pieces, c, tail, offset, source_eq, cut, refused, rfl, rfl, rfl⟩

/-- The fault of a source that cannot be read names the line of the source with its number, in one
of the columns of that line or in the one behind it. It stands behind the place where no lexeme can
be read, or behind some of the characters that follow. The tokens before it are those of the text
before that place, up to the end of a last line that holds something. -/
theorem fault_in_source
    {source file : String}
    {fault : Fault}
    (failed : (read source file).failure = some (.program fault)) :
    ∃ location line, ∃ index : Nat, ∃ before failing,
      fault.location = some location ∧ fault.sourceLine = some line ∧
      location.line = index + 1 ∧ (source.toList.splitOn '\n')[index]? = some line.toList ∧
      1 ≤ location.column ∧ location.column ≤ line.length + 1 ∧
      source.toList = before ++ failing ∧ Lexeme.FailsBehind before failing fault.cause ∧
      (∃ part, part <+: failing ∧ location = .behind file (before ++ part)) ∧
      read (String.ofList before) file = ⟨(read source file).tokens ++
        endingBehind file before (read source file).tokens, none⟩ := by
  obtain ⟨before, pieces, c, rest, offset, source_eq, cut, refused, tokens_eq, location_eq,
    line_eq⟩ := exists_cut_of_fault failed
  let part := (c :: rest).take offset
  let behind := (c :: rest).drop offset
  have parts : before ++ c :: rest = (before ++ part) ++ behind := by
    rw [List.append_assoc, List.take_append_drop]
  have found := (Text.isLine_lineAround (before ++ part) behind).getElem?_splitOn
  rw [Text.count_rdropWhile, ← parts, ← source_eq] at found
  refine ⟨_, _, (before ++ part).count '\n', before, c :: rest, location_eq, line_eq, rfl,
    ?_, ?_, ?_, source_eq, ⟨pieces, c, rest, offset, cut, rfl, refused⟩,
    ⟨part, List.take_prefix offset _, rfl⟩, ?_⟩
  · rw [String.toList_ofList]
    exact found
  · dsimp only [Location.behind]
    omega
  · rw [String.length_ofList, Text.lineAround, List.length_append]
    dsimp only [Location.behind]
    push_cast
    omega
  · rw [tokens_eq]
    exact read_of_cut_alone cut file

/-- A character literal that goes on behind the end of its line is malformed on the next line, and a
line is open where it starts. -/
theorem fault_in_source_of_brokenCharacter :
    let source := "main: OUT 1\nOUT '\\\nx"
    let fault : Fault := {
      cause := .noClosingQuote
      location := some { line := 3, column := 1 }
      sourceLine := some "x" }
    (read source).failure = some (.program fault) ∧
      ∃ before failing, source.toList = before ++ failing ∧
        Lexeme.FailsBehind before failing .noClosingQuote ∧
        read (String.ofList before) =
          ⟨(read source).tokens ++ endingBehind "<input>" before (read source).tokens, none⟩ := by
  intro source fault
  have failed : (read source).failure = some (.program fault) := by decide +kernel
  obtain ⟨_, _, _, before, failing, _, _, _, _, _, _, source_eq, fails, _, read_eq⟩ :=
    fault_in_source failed
  exact ⟨failed, before, failing, source_eq, fails, read_eq⟩

end Token
end WordAsm
