import Mathlib.Data.List.DropRight
import WordAsm.Proofs.Token.Reads

/-!
# Where tokens stand

A source that can be read is cut into lexemes, each with the characters that spell it. Every token
covers the characters of its lexeme, and stands on the line and in the column that the text before
it leads to. Lines end at line feeds only.

What a source reads as from a position on depends on the text there, on the line and the column, and
on the context that the text before leaves. A text that is cut into lexemes is therefore read in
parts: first the lexemes before a position, then what stands there in the context behind them.
-/

namespace WordAsm

/-! ## Places -/

/-- The place behind some text. -/
def Location.behind
    (file : String)
    (before : List Char) : Location where
  file := file
  line := before.count '\n' + 1
  column := (before.rtakeWhile (· != '\n')).length + 1

/-- The place some columns further right. -/
def Location.right
    (columns : Int)
    (location : Location) : Location :=
  { location with column := location.column + columns }

theorem Location.behind_append
    {text : List Char}
    (unbroken : '\n' ∉ text)
    (file : String)
    (before : List Char) :
    behind file (before ++ text) = (behind file before).right text.length := by
  have inLine : ∀ c ∈ text.reverse, (c != '\n') = true := by
    intro c listed
    rw [bne_iff_ne]
    rintro rfl
    exact unbroken (List.mem_reverse.mp listed)
  have column_eq : (before ++ text).rtakeWhile (· != '\n') =
      before.rtakeWhile (· != '\n') ++ text := by
    rw [List.rtakeWhile, List.reverse_append, List.takeWhile_append_of_pos inLine,
      List.reverse_append, List.reverse_reverse]
    rfl
  rw [behind, behind, right, column_eq, List.count_append,
    List.count_eq_zero_of_not_mem unbroken, List.length_append]
  congr 1
  push_cast
  omega

/-- Different parts of a source lead to different places. -/
theorem Location.eq_of_behind_eq
    {file : String}
    {first second source : List Char}
    (leading : first <+: source)
    (leadingOther : second <+: source)
    (same : behind file first = behind file second) :
    first = second := by
  have gapless (before gap : List Char) (same : behind file before = behind file (before ++ gap)) :
      gap = [] := by
    have lines := congrArg Location.line same
    simp only [behind, List.count_append] at lines
    have unbroken : '\n' ∉ gap := by
      rw [← List.count_eq_zero]
      omega
    rw [behind_append unbroken] at same
    have columns := congrArg Location.column same
    simp only [right] at columns
    exact List.eq_nil_of_length_eq_zero (by omega)
  obtain ⟨gap, rfl⟩ | ⟨gap, rfl⟩ := List.prefix_or_prefix_of_prefix leading leadingOther
  · rw [gapless first gap same, List.append_nil]
  · rw [gapless second gap same.symm, List.append_nil]

namespace Cursor

/-- A cursor counts the lines and columns of the text before it. -/
structure IsBehind
    (cursor : Cursor)
    (before : List Char) : Prop where
  line : cursor.line = before.count '\n' + 1
  column : cursor.column = (before.rtakeWhile (· != '\n')).length + 1

theorem isBehind_start (source : List Char) :
    (start source 1).IsBehind [] :=
  ⟨rfl, rfl⟩

theorem IsBehind.next
    {cursor : Cursor}
    {before rest : List Char}
    {c : Char}
    (behind : cursor.IsBehind before)
    (standing : cursor.rest = c :: rest) :
    cursor.next.IsBehind (before ++ [c]) := by
  obtain ⟨line, column⟩ := behind
  unfold Cursor.next
  rw [standing]
  by_cases feed : c = '\n'
  · subst feed
    constructor
    · simp [line]
    · simp
  · constructor
    · simp [feed, line]
    · simp [feed, column]

/-- What holds of a cursor and the text before it, and is kept by going over one character, is kept
by going over some text. -/
theorem skip_induction
    {Holds : Cursor → List Char → Prop}
    (step : ∀ {cursor : Cursor} {before : List Char} {c : Char} {rest : List Char},
      Holds cursor before → cursor.rest = c :: rest → Holds cursor.next (before ++ [c]))
    {cursor : Cursor}
    {before front rest : List Char}
    (holds : Holds cursor before)
    (standing : cursor.rest = front ++ rest) :
    Holds (cursor.skip front.length) (before ++ front) := by
  induction front generalizing cursor before with
  | nil =>
      rw [List.append_nil]
      exact holds
  | cons c front hypothesis =>
      have later : cursor.next.rest = front ++ rest := by
        rw [rest_next, standing]
        rfl
      have reached := hypothesis (step holds standing) later
      rwa [List.append_assoc, List.singleton_append] at reached

/-- Going over some text leads behind it. -/
theorem IsBehind.skip
    {cursor : Cursor}
    {before front rest : List Char}
    (behind : cursor.IsBehind before)
    (standing : cursor.rest = front ++ rest) :
    (cursor.skip front.length).IsBehind (before ++ front) :=
  skip_induction IsBehind.next behind standing

theorem skip_skip
    (cursor : Cursor)
    (first second : Nat) :
    (cursor.skip first).skip second = cursor.skip (first + second) := by
  induction first generalizing cursor with
  | zero => rw [Nat.zero_add, skip]
  | succ first hypothesis => rw [Nat.succ_add, skip, skip, hypothesis]

end Cursor

/-! ## Texts cut into lexemes -/

namespace Lexeme

/-- A lexeme and the characters that spell it. -/
structure Piece where
  lexeme : Lexeme
  text : List Char

/-- A text in front of some rest cut into lexemes, each up to where it stops. -/
inductive Cut (rest : List Char) : List Char → List Piece → Prop
  | nil :
      Cut rest [] []
  | cons {front text : List Char} {lexeme : Lexeme} {pieces : List Piece} :
      Spelled front lexeme →
      lexeme.StopsAt (text ++ rest).head? →
      Cut rest text pieces →
      Cut rest (front ++ text) (⟨lexeme, front⟩ :: pieces)

theorem Cut.spelled
    {text rest : List Char}
    {pieces : List Piece}
    (cut : Cut rest text pieces) :
    ∀ piece ∈ pieces, Spelled piece.text piece.lexeme := by
  induction cut with
  | nil => simp
  | cons spelled _ _ hypothesis =>
      rw [List.forall_mem_cons]
      exact ⟨spelled, hypothesis⟩

/-- Every text is cut up to its end, or up to where no lexeme can be read. -/
theorem exists_cut (text : List Char) :
    ∃ front pieces rest, text = front ++ rest ∧ Cut rest front pieces ∧
      (rest = [] ∨ ∃ c tail error, rest = c :: tail ∧ scan c tail = .error error) := by
  induction counted : text.length using Nat.strong_induction_on generalizing text with
  | h size hypothesis =>
      cases text with
      | nil => exact ⟨[], [], [], rfl, .nil, .inl rfl⟩
      | cons c tail =>
          cases read : scan c tail with
          | error error => exact ⟨[], [], c :: tail, rfl, .nil, .inr ⟨c, tail, error, rfl, read⟩⟩
          | ok found =>
              obtain ⟨lexeme, length⟩ := found
              have positive := scan_length_pos read
              obtain ⟨front, behind, text_eq, rfl, spelled, stops⟩ := leads_of_scan read
              have shorter : behind.length < size := by
                rw [← counted, text_eq, List.length_append]
                omega
              obtain ⟨text, pieces, rest, rfl, cut, ended⟩ := hypothesis _ shorter behind rfl
              refine ⟨front ++ text, ⟨lexeme, front⟩ :: pieces, rest, ?_, .cons spelled stops cut,
                ended⟩
              rw [text_eq, List.append_assoc]

end Lexeme

/-! ## Reading lexeme by lexeme -/

namespace Token

/-- The tokens of a placed lexeme: one, or none if the lexeme has no meaning. -/
def Context.tokensOf
    (context : Context)
    (file : String)
    (placed : Lexeme.Placed) : List Token :=
  (context.content? placed.lexeme).toList.map fun content =>
    ⟨content, { file, line := placed.line, column := placed.column }⟩

namespace Reading

/-- Put tokens before those of a reading. -/
def prepend
    (tokens : List Token)
    (reading : Reading) : Reading :=
  { reading with tokens := tokens ++ reading.tokens }

@[simp] theorem prepend_prepend
    (first second : List Token)
    (reading : Reading) :
    (reading.prepend second).prepend first = reading.prepend (first ++ second) := by
  simp [prepend]

theorem step_eq
    (file : String)
    (context : Context)
    (tokens : Array Token)
    (placed : Lexeme.Placed) :
    step file (context, tokens) placed =
      (context.after placed.lexeme, tokens ++ (context.tokensOf file placed).toArray) := by
  rw [step, Context.tokensOf]
  cases context.content? placed.lexeme <;> simp

end Reading

/-- Read the tokens from a position on, in the context that the text before it leaves. -/
def readFrom
    (file : String)
    (context : Context)
    (cursor : Cursor) : Reading :=
  match text : cursor.rest with
  | [] =>
      let location : Location := { file, line := cursor.line, column := cursor.column }
      ⟨context.closing.map fun content => ⟨content, location⟩, none⟩
  | c :: rest =>
      match read : Lexeme.scan c rest with
      | .error error => ⟨[], some (error.failure file cursor)⟩
      | .ok (lexeme, length) =>
          have := Lexeme.shorter_of_scan text read
          (readFrom file (context.after lexeme) (cursor.skip length)).prepend
            (context.tokensOf file (lexeme.place cursor (cursor.skip length)))
termination_by cursor.rest.length

section

variable {file : String} {context : Context} {cursor : Cursor} {c : Char} {rest : List Char}

theorem readFrom_of_nil (finished : cursor.rest = []) :
    readFrom file context cursor =
      ⟨context.closing.map fun content => ⟨content, ⟨file, cursor.line, cursor.column⟩⟩, none⟩ := by
  rw [readFrom]
  split
  · rfl
  · next text =>
      rw [finished] at text
      cases text

theorem readFrom_of_error
    {error : Lexeme.Error}
    (standing : cursor.rest = c :: rest)
    (failed : Lexeme.scan c rest = .error error) :
    readFrom file context cursor = ⟨[], some (error.failure file cursor)⟩ := by
  rw [readFrom]
  split
  · next text =>
      rw [standing] at text
      cases text
  · next text =>
      rw [standing] at text
      cases text
      split
      · next found =>
          rw [failed] at found
          cases found
          rfl
      · next found =>
          rw [failed] at found
          cases found

theorem readFrom_of_scan
    {lexeme : Lexeme}
    {length : Nat}
    (standing : cursor.rest = c :: rest)
    (read : Lexeme.scan c rest = .ok (lexeme, length)) :
    readFrom file context cursor =
      (readFrom file (context.after lexeme) (cursor.skip length)).prepend
        (context.tokensOf file (lexeme.place cursor (cursor.skip length))) := by
  rw [readFrom]
  split
  · next text =>
      rw [standing] at text
      cases text
  · next text =>
      rw [standing] at text
      cases text
      split
      · next found =>
          rw [read] at found
          cases found
      · next found =>
          rw [read] at found
          cases found
          rfl

end

/-- Cutting a text into lexemes and giving these their meaning afterwards is reading it lexeme by
lexeme. -/
theorem Reading.ofRun_runFrom
    {file : String}
    {cursor : Cursor}
    {before : Array Lexeme.Placed}
    {context : Context}
    {tokens : Array Token}
    (fold_eq : before.toList.foldl (step file) ({}, #[]) = (context, tokens)) :
    ofRun file (Lexeme.runFrom file cursor before) =
      (readFrom file context cursor).prepend tokens.toList := by
  fun_induction Lexeme.runFrom file cursor before generalizing context tokens with
  | case1 cursor before finished =>
      rw [readFrom_of_nil finished, ofRun, fold_eq, Context.closing]
      cases filled : context.lineHasTokens <;> simp [prepend, filled]
  | case2 cursor before c rest standing error failed =>
      rw [readFrom_of_error standing failed, ofRun, fold_eq]
      rfl
  | case3 cursor before c rest standing lexeme length read _ hypothesis =>
      let placed := lexeme.place cursor (cursor.skip length)
      have later : (before.push placed).toList.foldl (step file) ({}, #[]) =
          (context.after lexeme, tokens ++ (context.tokensOf file placed).toArray) := by
        rw [Array.toList_push, List.foldl_append, fold_eq]
        exact step_eq file context tokens placed
      rw [hypothesis later, readFrom_of_scan standing read, prepend_prepend, Array.toList_append]

theorem read_eq_readFrom
    (source file : String)
    (line : Int) :
    read source file line = readFrom file {} (.start source.toList line) :=
  Reading.ofRun_runFrom rfl

/-! ## Reading part by part -/

/-- The context behind some lexemes. -/
def Context.afterAll
    (context : Context)
    (pieces : List Lexeme.Piece) : Context :=
  pieces.foldl (fun context piece => context.after piece.lexeme) context

/-- The tokens of lexemes behind some text. -/
def tokensBehind
    (file : String)
    (context : Context)
    (before : List Char) : List Lexeme.Piece → List Token
  | [] => []
  | piece :: pieces =>
      (context.content? piece.lexeme).toList.map (fun content => ⟨content, .behind file before⟩) ++
        tokensBehind file (context.after piece.lexeme) (before ++ piece.text) pieces

/-- The contents of the tokens of some lexemes, wherever these stand. -/
def Context.contentsOf
    (context : Context) : List Lexeme.Piece → List Content
  | [] => []
  | piece :: pieces =>
      (context.content? piece.lexeme).toList ++ (context.after piece.lexeme).contentsOf pieces

theorem map_content_tokensBehind
    (file : String)
    (context : Context)
    (before : List Char)
    (pieces : List Lexeme.Piece) :
    (tokensBehind file context before pieces).map (·.content) = context.contentsOf pieces := by
  induction pieces generalizing context before with
  | nil => rfl
  | cons piece pieces hypothesis =>
      rw [tokensBehind, List.map_append, hypothesis, Context.contentsOf, List.map_map]
      exact congrArg (· ++ _) (List.map_id _)

theorem Context.afterAll_append
    (context : Context)
    (pieces others : List Lexeme.Piece) :
    context.afterAll (pieces ++ others) = (context.afterAll pieces).afterAll others :=
  List.foldl_append

theorem Context.contentsOf_append
    (context : Context)
    (pieces others : List Lexeme.Piece) :
    context.contentsOf (pieces ++ others) =
      context.contentsOf pieces ++ (context.afterAll pieces).contentsOf others := by
  induction pieces generalizing context with
  | nil => rfl
  | cons piece pieces hypothesis =>
      rw [List.cons_append, contentsOf, hypothesis, contentsOf, List.append_assoc]
      rfl

theorem tokensBehind_append
    {text rest : List Char}
    {pieces : List Lexeme.Piece}
    (cut : Lexeme.Cut rest text pieces)
    (file : String)
    (context : Context)
    (before : List Char)
    (others : List Lexeme.Piece) :
    tokensBehind file context before (pieces ++ others) =
      tokensBehind file context before pieces ++
        tokensBehind file (context.afterAll pieces) (before ++ text) others := by
  induction cut generalizing context before with
  | nil =>
      rw [List.append_nil]
      rfl
  | cons _ _ _ hypothesis =>
      rw [List.cons_append, tokensBehind, hypothesis, tokensBehind, List.append_assoc,
        List.append_assoc]
      rfl

theorem Context.tokensOf_place
    {start : Cursor}
    {before : List Char}
    (behind : start.IsBehind before)
    (file : String)
    (context : Context)
    (lexeme : Lexeme)
    (stop : Cursor) :
    context.tokensOf file (lexeme.place start stop) =
      (context.content? lexeme).toList.map fun content => ⟨content, .behind file before⟩ := by
  have counted : start.line ≠ 0 := by
    rw [behind.line]
    omega
  rw [tokensOf, Lexeme.place, if_neg counted, Location.behind, ← behind.line, ← behind.column]

/-- A text that is cut is read up to its rest, and the rest is read behind it. -/
theorem readFrom_of_cut
    {text rest : List Char}
    {pieces : List Lexeme.Piece}
    (cut : Lexeme.Cut rest text pieces)
    (file : String)
    (context : Context)
    {cursor : Cursor}
    {before : List Char}
    (standing : cursor.rest = text ++ rest)
    (behind : cursor.IsBehind before) :
    readFrom file context cursor =
      (readFrom file (context.afterAll pieces) (cursor.skip text.length)).prepend
        (tokensBehind file context before pieces) := by
  induction cut generalizing context cursor before with
  | nil => rfl
  | @cons front text lexeme pieces spelled stops _ hypothesis =>
      rw [List.append_assoc] at standing
      obtain ⟨c, tail, rfl, read⟩ := spelled.exists_scan stops
      have skipped : (cursor.skip (tail.length + 1)).rest = text ++ rest := Reads.rest_skip standing
      rw [readFrom_of_scan standing read, hypothesis _ skipped (behind.skip standing),
        Reading.prepend_prepend, Context.tokensOf_place behind, Cursor.skip_skip,
        List.length_append]
      rfl

/-- A source is read up to where no lexeme can be read, or to its end. -/
theorem read_of_cut
    {source file : String}
    {text rest : List Char}
    {pieces : List Lexeme.Piece}
    (cut : Lexeme.Cut rest text pieces)
    (standing : source.toList = text ++ rest) :
    read source file =
      (readFrom file (Context.afterAll {} pieces)
        ((Cursor.start source.toList 1).skip text.length)).prepend
          (tokensBehind file {} [] pieces) := by
  rw [read_eq_readFrom]
  exact readFrom_of_cut cut file {} standing (Cursor.isBehind_start _)

end Token

/-! ## Tokens and the text that they cover -/

namespace Token

/-- A content with the text before it in its source and the characters that it covers. -/
structure Span where
  content : Content
  before : List Char
  text : List Char

/-- The token of a span stands behind the text before it. -/
def Span.token
    (file : String)
    (span : Span) : Token :=
  ⟨span.content, .behind file span.before⟩

/-- The spans of the lexemes behind some text. The end of the source covers no characters. -/
def spansFrom
    (context : Context)
    (before : List Char) : List Lexeme.Piece → List Span
  | [] => context.closing.map fun content => ⟨content, before, []⟩
  | piece :: pieces =>
      (context.content? piece.lexeme).toList.map (fun content => ⟨content, before, piece.text⟩) ++
        spansFrom (context.after piece.lexeme) (before ++ piece.text) pieces

/-- The spans of the lexemes of a source. -/
def spansOf (pieces : List Lexeme.Piece) : List Span :=
  spansFrom {} [] pieces

/-- The tokens of the spans are those of the lexemes, and the end of an open last line. -/
theorem map_token_spansFrom
    {text rest : List Char}
    {pieces : List Lexeme.Piece}
    (cut : Lexeme.Cut rest text pieces)
    (file : String)
    (context : Context)
    (before : List Char) :
    (spansFrom context before pieces).map (Span.token file) =
      tokensBehind file context before pieces ++
        (context.afterAll pieces).closing.map
          fun content => ⟨content, .behind file (before ++ text)⟩ := by
  induction cut generalizing context before with
  | nil =>
      rw [spansFrom, List.map_map, List.append_nil]
      rfl
  | cons _ _ _ hypothesis =>
      rw [spansFrom, List.map_append, hypothesis, List.map_map, tokensBehind, List.append_assoc,
        List.append_assoc]
      rfl

/-- A source that is cut to its end is read as the tokens of its spans. -/
theorem read_of_cut_nil
    {source : String}
    {pieces : List Lexeme.Piece}
    (cut : Lexeme.Cut [] source.toList pieces)
    (file : String) :
    read source file = ⟨(spansOf pieces).map (Span.token file), none⟩ := by
  have standing : source.toList = source.toList ++ [] := (List.append_nil _).symm
  have behind := (Cursor.isBehind_start source.toList).skip standing
  have finished : ((Cursor.start source.toList 1).skip source.toList.length).rest = [] := by
    rw [Cursor.rest_skip]
    exact List.drop_length
  rw [read_of_cut cut standing, readFrom_of_nil finished, spansOf, map_token_spansFrom cut,
    Location.behind, ← behind.line, ← behind.column]
  rfl

/-- A source is read up to where no lexeme can be read. -/
theorem read_of_cut_error
    {source file : String}
    {text rest : List Char}
    {c : Char}
    {pieces : List Lexeme.Piece}
    {error : Lexeme.Error}
    (cut : Lexeme.Cut (c :: rest) text pieces)
    (standing : source.toList = text ++ c :: rest)
    (failed : Lexeme.scan c rest = .error error) :
    read source file =
      ⟨tokensBehind file {} [] pieces,
        some (error.failure file ((Cursor.start source.toList 1).skip text.length))⟩ := by
  have left : ((Cursor.start source.toList 1).skip text.length).rest = c :: rest := by
    rw [Cursor.rest_skip, Cursor.start, standing, List.drop_left]
  rw [read_of_cut cut standing, readFrom_of_error left failed, Reading.prepend, List.append_nil]

/-- A source can be read exactly when it can be cut, and its tokens are those of the spans. -/
theorem ofSource_eq_ok_iff
    (source file : String)
    (tokens : List Token) :
    ofSource source file = .ok tokens ↔
      ∃ pieces, Lexeme.Cut [] source.toList pieces ∧
        tokens = (spansOf pieces).map (Span.token file) := by
  constructor
  · intro found
    obtain ⟨text, pieces, rest, standing, cut, ended⟩ := Lexeme.exists_cut source.toList
    obtain rfl | ⟨c, tail, error, rfl, failed⟩ := ended
    · rw [List.append_nil] at standing
      subst standing
      rw [ofSource, read_of_cut_nil cut] at found
      cases found
      exact ⟨pieces, cut, rfl⟩
    · rw [ofSource, read_of_cut_error cut standing failed] at found
      cases found
  · rintro ⟨pieces, cut, rfl⟩
    rw [ofSource, read_of_cut_nil cut]
    rfl

end Token
end WordAsm
