import WordAsm.Proofs.Token.Continuation
import WordAsm.Proofs.Token.Lines

/-!
# Reading below whole lines

Where a line starts, all that is left of the text above is the number of the line and the section.
Whole lines are therefore read alike above any text, and a text is read alike some lines further
down.
-/

namespace WordAsm

/-! ## Cutting a text -/

/-- Whether a text is made of whole lines: it is empty or ends in a line feed. -/
def Text.IsWholeLines (text : List Char) : Prop :=
  text = [] ∨ ∃ above, text = above ++ ['\n']

theorem Text.IsWholeLines.append
    {first second : List Char}
    (whole : IsWholeLines first)
    (wholeOther : IsWholeLines second) :
    IsWholeLines (first ++ second) := by
  obtain rfl | ⟨above, rfl⟩ := wholeOther
  · rwa [List.append_nil]
  · exact .inr ⟨first ++ above, (List.append_assoc ..).symm⟩

namespace Lexeme

/-- Where lexemes end depends on no more of the rest than its first character. -/
theorem Cut.of_head?_eq
    {text rest other : List Char}
    {pieces : List Piece}
    (cut : Cut rest text pieces)
    (same : other.head? = rest.head?) :
    Cut other text pieces := by
  induction cut with
  | nil => exact .nil
  | cons spelled stops _ hypothesis =>
      refine .cons spelled ?_ hypothesis
      rwa [List.head?_append, same, ← List.head?_append]

theorem Cut.append
    {first second rest : List Char}
    {pieces others : List Piece}
    (before : Cut (second ++ rest) first pieces)
    (behind : Cut rest second others) :
    Cut rest (first ++ second) (pieces ++ others) := by
  induction before with
  | nil => exact behind
  | cons spelled stops _ hypothesis =>
      rw [List.append_assoc]
      refine .cons spelled ?_ hypothesis
      rwa [List.append_assoc]

/-- Lexemes one behind the other divide their text. -/
theorem Cut.exists_of_append
    {text rest : List Char}
    {pieces others : List Piece}
    (cut : Cut rest text (pieces ++ others)) :
    ∃ first second, text = first ++ second ∧ Cut (second ++ rest) first pieces ∧
      Cut rest second others := by
  induction pieces generalizing text with
  | nil => exact ⟨[], text, rfl, .nil, cut⟩
  | cons piece pieces hypothesis =>
      obtain _ | ⟨spelled, stops, later⟩ := cut
      obtain ⟨first, second, rfl, before, behind⟩ := hypothesis later
      rename_i front lexeme
      refine ⟨front ++ first, second, (List.append_assoc ..).symm, .cons spelled ?_ before, behind⟩
      rwa [← List.append_assoc]

/-- No text is cut into no lexemes only. -/
theorem Cut.eq_nil
    {rest : List Char}
    {pieces : List Piece}
    (cut : Cut rest [] pieces) :
    pieces = [] := by
  generalize empty : ([] : List Char) = text at cut
  cases cut with
  | nil => rfl
  | cons spelled stops _ =>
      obtain ⟨c, tail, rfl, _⟩ := spelled.exists_scan stops
      cases empty

/-- A line feed at the end of a cut text is a line break: no lexeme holds it in its last place
otherwise. -/
theorem Cut.exists_lineBreak
    {text rest : List Char}
    {pieces : List Piece}
    (cut : Cut rest (text ++ ['\n']) pieces) :
    ∃ front, pieces = front ++ [⟨.lineBreak, ['\n']⟩] ∧ Cut ('\n' :: rest) text front := by
  generalize whole_eq : text ++ ['\n'] = whole at cut
  induction cut generalizing text with
  | nil => simp at whole_eq
  | @cons front back lexeme pieces spelled stops later hypothesis =>
      obtain rfl | ⟨inner, last, rfl⟩ := List.eq_nil_or_concat' back
      · rw [List.append_nil] at whole_eq
        have listed : '\n' ∈ front := by simp [← whole_eq]
        obtain rfl | broken := spelled.eq_of_lineFeed_mem listed
        · cases spelled
          obtain rfl : text = [] := by simpa using whole_eq
          exact ⟨[], by rw [later.eq_nil]; rfl, .nil⟩
        · have ends := congrArg List.getLast? (whole_eq.trans broken)
          simp [brokenCharacter] at ends
      · rw [← List.append_assoc] at whole_eq
        obtain ⟨rfl, same⟩ := List.append_inj' whole_eq rfl
        cases same
        obtain ⟨front, rfl, cut⟩ := hypothesis rfl
        refine ⟨_ :: front, rfl, .cons spelled ?_ cut⟩
        rwa [List.append_assoc] at stops

/-- Whole lines are cut alike in front of any text. -/
theorem Cut.of_wholeLines
    {text : List Char}
    {pieces : List Piece}
    (cut : Cut [] text pieces)
    (whole : Text.IsWholeLines text)
    (rest : List Char) :
    Cut rest text pieces := by
  obtain rfl | ⟨above, rfl⟩ := whole
  · rw [cut.eq_nil]
    exact .nil
  · obtain ⟨front, rfl, before⟩ := cut.exists_lineBreak
    have longer : Cut (['\n'] ++ rest) above front := before.of_head?_eq rfl
    exact longer.append (.cons .lineBreak trivial .nil)

end Lexeme

/-! ## Further down -/

/-- The place some lines further down. -/
def Location.down
    (lines : Int)
    (location : Location) : Location :=
  { location with line := location.line + lines }

/-- The token some lines further down. -/
def Token.down
    (lines : Int)
    (token : Token) : Token :=
  { token with location := token.location.down lines }

/-- The failure some lines further down, if it is located. -/
def Failure.down
    (lines : Int) : Failure → Failure
  | .program fault => .program { fault with location := fault.location.map (·.down lines) }
  | failure => failure

/-- The reading of a source that stands some lines further down. -/
def Token.Reading.down
    (lines : Int)
    (reading : Reading) : Reading where
  tokens := reading.tokens.map (·.down lines)
  failure := reading.failure.map (·.down lines)

namespace Cursor

/-- The same position some lines further down. -/
def down
    (lines : Int)
    (cursor : Cursor) : Cursor :=
  { cursor with line := cursor.line + lines }

theorem next_down
    (lines : Int)
    (cursor : Cursor) :
    (cursor.down lines).next = cursor.next.down lines := by
  obtain ⟨rest, line, column, lineText⟩ := cursor
  cases rest with
  | nil => rfl
  | cons c rest =>
      simp only [next, down]
      split
      · rw [Int.add_right_comm]
      · rfl

theorem skip_down
    (lines : Int)
    (count : Nat)
    (cursor : Cursor) :
    (cursor.down lines).skip count = (cursor.skip count).down lines := by
  induction count generalizing cursor with
  | zero => rfl
  | succ count hypothesis => rw [skip, next_down, hypothesis, skip]

end Cursor

theorem Lexeme.Error.failure_down
    (file : String)
    (lines : Int)
    (cursor : Cursor)
    (error : Error) :
    error.failure file (cursor.down lines) = (error.failure file cursor).down lines := by
  cases error with
  | longNumeral => rfl
  | malformed cause offset =>
      rw [failure, failure, Cursor.skip_down, Failure.ofFault, Failure.ofFault]
      split <;> rfl

namespace Token

/-- Line zero is left out: what starts there is counted on the line on which it ends. -/
theorem Context.tokensOf_down
    {lines : Int}
    {start : Cursor}
    (above : start.line ≠ 0)
    (below : start.line + lines ≠ 0)
    (file : String)
    (context : Context)
    (lexeme : Lexeme)
    (stop : Cursor) :
    context.tokensOf file (lexeme.place (start.down lines) (stop.down lines)) =
      (context.tokensOf file (lexeme.place start stop)).map (·.down lines) := by
  have below : (start.down lines).line ≠ 0 := below
  rw [tokensOf, tokensOf, Lexeme.place, Lexeme.place, if_neg above, if_neg below, List.map_map]
  rfl

/-- A text is read alike some lines further down. -/
theorem readFrom_down
    {lines : Int}
    {cursor : Cursor}
    (file : String)
    (context : Context)
    (above : 0 < cursor.line)
    (below : 0 < cursor.line + lines) :
    readFrom file context (cursor.down lines) = (readFrom file context cursor).down lines := by
  fun_induction readFrom file context cursor with
  | case1 context cursor finished =>
      rw [readFrom_of_nil (show (cursor.down lines).rest = [] from finished), Reading.down,
        List.map_map]
      rfl
  | case2 context cursor c rest standing error failed =>
      have same : (cursor.down lines).rest = c :: rest := standing
      rw [readFrom_of_error same failed, Lexeme.Error.failure_down]
      rfl
  | case3 context cursor c rest standing lexeme length read _ hypothesis =>
      have same : (cursor.down lines).rest = c :: rest := standing
      have later := cursor.line_le_skip length
      rw [readFrom_of_scan same read, Cursor.skip_down, hypothesis (by omega) (by omega),
        Context.tokensOf_down (by omega) (by omega)]
      simp [Reading.down, Reading.prepend]

end Token

/-! ## Below whole lines -/

/-- Behind whole lines a cursor starts again, some lines further down. -/
theorem Cursor.skip_wholeLines
    {front : List Char}
    (whole : Text.IsWholeLines front)
    (back : List Char) :
    (start (front ++ back) 1).skip front.length = start back (front.count '\n' + 1) := by
  obtain rfl | ⟨above, rfl⟩ := whole
  · rfl
  · rw [List.append_assoc]
    have standing : (start (above ++ (['\n'] ++ back)) 1).rest = above ++ (['\n'] ++ back) := rfl
    have behind := (isBehind_start _).skip standing
    have left : ((start (above ++ (['\n'] ++ back)) 1).skip above.length).rest = '\n' :: back := by
      rw [rest_skip, standing, List.drop_left]
      rfl
    rw [List.length_append, ← skip_skip, List.count_append]
    generalize (start (above ++ (['\n'] ++ back)) 1).skip above.length = seam at behind left
    change seam.next = _
    rw [next, left, start, behind.line]
    simp

namespace Token

/-- Whether a context is that at the start of a line. -/
structure Context.IsFresh (context : Context) : Prop where
  empty : context.lineHasTokens = false
  awaiting : context.awaitsMnemonic = true

theorem Context.IsFresh.closing_eq
    {context : Context}
    (fresh : context.IsFresh) :
    context.closing = [] := by
  rw [closing, fresh.empty]
  rfl

/-- Behind whole lines a new line starts. -/
theorem Context.isFresh_afterAll
    {text : List Char}
    {pieces : List Lexeme.Piece}
    (cut : Lexeme.Cut [] text pieces)
    (whole : Text.IsWholeLines text) :
    (afterAll {} pieces).IsFresh := by
  obtain rfl | ⟨above, rfl⟩ := whole
  · rw [cut.eq_nil]
    exact ⟨rfl, rfl⟩
  · obtain ⟨front, rfl, _⟩ := cut.exists_lineBreak
    rw [afterAll, List.foldl_append]
    exact ⟨rfl, rfl⟩

/-- Whole lines are read alike above any text, which is read from the start of a line on. -/
theorem read_of_wholeLines
    {front : String}
    {pieces : List Lexeme.Piece}
    (cut : Lexeme.Cut [] front.toList pieces)
    (whole : Text.IsWholeLines front.toList)
    (back file : String) :
    read (front ++ back) file =
      (readFrom file (Context.afterAll {} pieces)
        (.start back.toList (front.toList.count '\n' + 1))).prepend
          (tokensBehind file {} [] pieces) := by
  rw [read_of_cut (cut.of_wholeLines whole back.toList) (String.toList_append ..),
    String.toList_append, Cursor.skip_wholeLines whole]

/-- Whole lines end their last line themselves. -/
theorem ofSource_of_wholeLines
    {source : String}
    {pieces : List Lexeme.Piece}
    (cut : Lexeme.Cut [] source.toList pieces)
    (whole : Text.IsWholeLines source.toList)
    (file : String) :
    ofSource source file = .ok (tokensBehind file {} [] pieces) := by
  have alone := read_of_wholeLines cut whole "" file
  rw [String.append_empty, readFrom_of_nil rfl, (Context.isFresh_afterAll cut whole).closing_eq]
    at alone
  rw [ofSource, alone]
  simp [Reading.prepend, Reading.result]

theorem exists_cut_of_wholeLines
    {source file : String}
    {tokens : List Token}
    (whole : Text.IsWholeLines source.toList)
    (found : ofSource source file = .ok tokens) :
    ∃ pieces, Lexeme.Cut [] source.toList pieces ∧ tokens = tokensBehind file {} [] pieces := by
  obtain ⟨pieces, cut, _⟩ := (ofSource_eq_ok_iff ..).mp found
  rw [ofSource_of_wholeLines cut whole file] at found
  cases found
  exact ⟨pieces, cut, rfl⟩

end Token
end WordAsm
