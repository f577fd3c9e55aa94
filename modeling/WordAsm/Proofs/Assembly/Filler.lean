import WordAsm.Proofs.Correspondence.Places
import WordAsm.Proofs.Token.Resumption

/-!
# Blanks, comments and empty lines

Blanks with a comment behind them mean nothing. On a line of their own they move the tokens below one
line down, and at the end of a line they move the end of that line to the right. All else is read as
without them, so the program is assembled alike.
-/

namespace WordAsm

/-! ## Text without meaning -/

namespace Lexeme

/-- Whether a text has no meaning in front of a line break: blanks, and then perhaps a comment. -/
def IsFiller (text : List Char) : Prop :=
  ∃ blanks comment, text = blanks ++ comment ∧ (∀ c ∈ blanks, isBlank c = true) ∧
    (comment = [] ∨ ∃ body, comment = ';' :: body ∧ '\n' ∉ body)

/-- Whether lexemes are blanks and comments only. -/
def AreSilent (pieces : List Piece) : Prop :=
  ∀ piece ∈ pieces, piece.lexeme = .blank ∨ piece.lexeme = .comment

variable {text rest : List Char} {pieces : List Piece}

theorem IsFiller.lineFeed_not_mem
    (filler : IsFiller text) :
    '\n' ∉ text := by
  obtain ⟨blanks, comment, rfl, blank, commented⟩ := filler
  have unbroken : '\n' ∉ blanks := by
    intro listed
    cases blank '\n' listed
  obtain rfl | ⟨body, rfl, unbrokenBody⟩ := commented
  · simpa using unbroken
  · simp [unbroken, unbrokenBody]

/-- Behind a filler follows a line feed, so a filler starts with a blank, a semicolon or that. -/
theorem IsFiller.head?_cases
    (filler : IsFiller text) :
    ∀ c ∈ (text ++ '\n' :: rest).head?, isBlank c = true ∨ c = ';' ∨ c = '\n' := by
  obtain ⟨blanks, comment, rfl, blank, commented⟩ := filler
  intro c first
  cases blanks with
  | cons here blanks =>
      cases first
      exact .inl (blank c List.mem_cons_self)
  | nil =>
      obtain rfl | ⟨body, rfl, _⟩ := commented
      · cases first
        exact .inr (.inr rfl)
      · cases first
        exact .inr (.inl rfl)

/-- A filler is cut into a blank and a comment, where it has them. -/
theorem IsFiller.exists_cut
    (filler : IsFiller text)
    (rest : List Char) :
    ∃ added, AreSilent added ∧ Cut ('\n' :: rest) text added := by
  obtain ⟨blanks, comment, rfl, blank, commented⟩ := filler
  have behind : ∃ added, AreSilent added ∧ Cut ('\n' :: rest) comment added := by
    obtain rfl | ⟨body, rfl, unbroken⟩ := commented
    · exact ⟨[], by simp [AreSilent], .nil⟩
    · have spelled : Spelled (';' :: body) .comment :=
        .comment fun c listed same => unbroken (same ▸ listed)
      have cut : Cut ('\n' :: rest) (';' :: body ++ []) [⟨.comment, ';' :: body⟩] :=
        .cons spelled (by simp [StopsAt]) .nil
      rw [List.append_nil] at cut
      exact ⟨_, by simp [AreSilent], cut⟩
  by_cases empty : blanks = []
  · rwa [empty, List.nil_append]
  · obtain ⟨added, silent, cut⟩ := behind
    refine ⟨⟨.blank, blanks⟩ :: added, ?_, .cons (.blank empty blank) ?_ cut⟩
    · rw [AreSilent, List.forall_mem_cons]
      exact ⟨.inl rfl, silent⟩
    · intro c first
      obtain rfl | ⟨body, rfl, _⟩ := commented
      · cases first
        rfl
      · cases first
        rfl

/-- Blanks or a comment in front of a filler are a filler with it. -/
theorem Spelled.isFiller_append
    {front : List Char}
    {lexeme : Lexeme}
    (spelled : Spelled front lexeme)
    (silent : lexeme = .blank ∨ lexeme = .comment)
    (filler : IsFiller text) :
    IsFiller (front ++ text) := by
  obtain rfl | rfl := silent
  · obtain ⟨blanks, comment, rfl, blank, commented⟩ := filler
    obtain ⟨_, all⟩ := spelled
    exact ⟨front ++ blanks, comment, (List.append_assoc ..).symm,
      List.forall_mem_append.mpr ⟨all, blank⟩, commented⟩
  · have unbroken := filler.lineFeed_not_mem
    cases spelled with
    | @comment body all =>
        refine ⟨[], ';' :: body ++ text, rfl, by simp, .inr ⟨body ++ text, rfl, ?_⟩⟩
        rw [List.mem_append, not_or]
        exact ⟨fun listed => all '\n' listed rfl, unbroken⟩

/-- A lexeme that stops at the end of a line stops at a filler, unless it is one itself. -/
theorem StopsAt.of_filler
    {lexeme : Lexeme}
    (audible : ¬ (lexeme = .blank ∨ lexeme = .comment))
    (filler : IsFiller text) :
    lexeme.StopsAt (text ++ '\n' :: rest).head? := by
  have ends (c : Char) (first : c ∈ (text ++ '\n' :: rest).head?) :
      isNameCharacter c = false ∧ c ≠ ':' := by
    obtain blank | rfl | rfl := filler.head?_cases c first
    · rw [isBlank, Bool.or_eq_true, Bool.or_eq_true, beq_iff_eq, beq_iff_eq, beq_iff_eq] at blank
      obtain (rfl | rfl) | rfl := blank <;> decide
    · decide
    · decide
  cases lexeme with
  | blank => exact absurd (.inl rfl) audible
  | comment => exact absurd (.inr rfl) audible
  | word => exact ends
  | marker => exact fun c first => (ends c first).1
  | number => exact fun c first => (ends c first).1
  | _ => trivial

/-- A filler at the end of a line changes the blanks and comments there, and no other lexeme. -/
theorem Cut.exists_filled
    {filler : List Char}
    (cut : Cut ('\n' :: rest) text pieces)
    (isFiller : IsFiller filler) :
    ∃ kept dropped added, pieces = kept ++ dropped ∧ AreSilent dropped ∧ AreSilent added ∧
      Cut ('\n' :: rest) (text ++ filler) (kept ++ added) := by
  induction cut with
  | nil =>
      obtain ⟨added, silent, cut⟩ := isFiller.exists_cut rest
      exact ⟨[], [], added, rfl, by simp [AreSilent], silent, cut⟩
  | @cons front text lexeme pieces spelled stops later hypothesis =>
      obtain rfl | nonempty := eq_or_ne text []
      · obtain rfl := later.eq_nil
        rw [List.append_nil]
        by_cases silent : lexeme = .blank ∨ lexeme = .comment
        · obtain ⟨added, silentAdded, cut⟩ :=
            (spelled.isFiller_append silent isFiller).exists_cut rest
          exact ⟨[], [⟨lexeme, front⟩], added, rfl, by simpa [AreSilent] using silent, silentAdded,
            cut⟩
        · obtain ⟨added, silentAdded, cut⟩ := isFiller.exists_cut rest
          exact ⟨[⟨lexeme, front⟩], [], added, rfl, by simp [AreSilent], silentAdded,
            .cons spelled (.of_filler silent isFiller) cut⟩
      · obtain ⟨kept, dropped, added, rfl, silent, silentAdded, cut⟩ := hypothesis
        refine ⟨⟨lexeme, front⟩ :: kept, dropped, added, rfl, silent, silentAdded, ?_⟩
        rw [List.append_assoc]
        refine .cons spelled ?_ cut
        obtain ⟨c, tail, rfl⟩ := List.exists_cons_of_ne_nil nonempty
        exact stops

end Lexeme

/-! ## Reading with and without it -/

namespace Token

open Lexeme (AreSilent Cut IsFiller Piece)

theorem Context.afterAll_of_silent
    {pieces : List Piece}
    (silent : AreSilent pieces)
    (context : Context) :
    context.afterAll pieces = context := by
  induction pieces with
  | nil => rfl
  | cons piece pieces hypothesis =>
      rw [AreSilent, List.forall_mem_cons] at silent
      have same : context.after piece.lexeme = context := by
        obtain here | here := silent.1 <;> rw [here] <;> rfl
      rw [afterAll, List.foldl_cons, same]
      exact hypothesis silent.2

theorem tokensBehind_of_silent
    {pieces : List Piece}
    (silent : AreSilent pieces)
    (file : String)
    (context : Context)
    (before : List Char) :
    tokensBehind file context before pieces = [] := by
  induction pieces generalizing context before with
  | nil => rfl
  | cons piece pieces hypothesis =>
      rw [AreSilent, List.forall_mem_cons] at silent
      have none : context.content? piece.lexeme = none := by
        obtain here | here := silent.1 <;> rw [here] <;> rfl
      rw [tokensBehind, none, hypothesis silent.2]
      rfl

theorem Context.afterAll_append_silent
    {silent : List Piece}
    (areSilent : AreSilent silent)
    (context : Context)
    (pieces : List Piece) :
    context.afterAll (pieces ++ silent) = context.afterAll pieces := by
  rw [afterAll_append, afterAll_of_silent areSilent]

theorem tokensBehind_append_silent
    {silent : List Piece}
    (areSilent : AreSilent silent)
    (file : String)
    (context : Context)
    (before : List Char)
    (pieces : List Piece) :
    tokensBehind file context before (pieces ++ silent) =
      tokensBehind file context before pieces := by
  induction pieces generalizing context before with
  | nil => exact tokensBehind_of_silent areSilent file context before
  | cons piece pieces hypothesis => rw [List.cons_append, tokensBehind, hypothesis, tokensBehind]

/-- The break of a line without tokens means nothing and changes nothing. -/
theorem Context.IsFresh.lineBreak
    {context : Context}
    (fresh : context.IsFresh) :
    context.content? .lineBreak = none ∧ context.after .lineBreak = context := by
  constructor
  · rw [content?, fresh.empty]
    rfl
  · rw [after, ← fresh.empty, ← fresh.awaiting]

/-- The tokens of a line, its end if it has tokens, and what is read below it. -/
theorem read_of_lineBreak
    {front back : String}
    {pieces : List Piece}
    (cut : Cut ('\n' :: back.toList) front.toList pieces)
    (file : String) :
    read (front ++ "\n" ++ back) file =
      (readFrom file ((Context.afterAll {} pieces).after .lineBreak)
        (.start back.toList (front.toList.count '\n' + 1 + 1))).prepend
          (tokensBehind file {} [] pieces ++
            ((Context.afterAll {} pieces).content? .lineBreak).toList.map
              fun content => ⟨content, .behind file front.toList⟩) := by
  have before : Cut (['\n'] ++ []) front.toList pieces := cut.of_head?_eq rfl
  have cutAll : Cut [] (front ++ "\n").toList (pieces ++ [⟨.lineBreak, ['\n']⟩]) := by
    rw [String.toList_append]
    exact before.append (.cons .lineBreak trivial .nil)
  have wholeAll : Text.IsWholeLines (front ++ "\n").toList := .inr ⟨front.toList, by simp⟩
  have count_eq : (front ++ "\n").toList.count '\n' = front.toList.count '\n' + 1 := by
    simp
  rw [read_of_wholeLines cutAll wholeAll, Context.afterAll_append, tokensBehind_append before,
    tokensBehind, tokensBehind, List.append_nil, count_eq]
  rfl

/-- A line without meaning moves what stands below it one line down. -/
theorem read_below_filler
    {front filler : String}
    {pieces : List Piece}
    (cut : Cut [] front.toList pieces)
    (whole : Text.IsWholeLines front.toList)
    (isFiller : IsFiller filler.toList)
    (back file : String) :
    read (front ++ filler ++ "\n" ++ back) file =
      ((readFrom file (Context.afterAll {} pieces)
        (.start back.toList (front.toList.count '\n' + 1))).down 1).prepend
          (tokensBehind file {} [] pieces) := by
  obtain ⟨added, silent, cutFiller⟩ := isFiller.exists_cut back.toList
  have above : Cut (filler.toList ++ '\n' :: back.toList) front.toList pieces :=
    cut.of_wholeLines whole _
  have cutAll : Cut ('\n' :: back.toList) (front ++ filler).toList (pieces ++ added) := by
    rw [String.toList_append]
    exact above.append cutFiller
  have count_eq : (front ++ filler).toList.count '\n' = front.toList.count '\n' := by
    rw [String.toList_append, List.count_append,
      List.count_eq_zero_of_not_mem isFiller.lineFeed_not_mem, Nat.add_zero]
  obtain ⟨meaning, unchanged⟩ := (Context.isFresh_afterAll cut whole).lineBreak
  rw [read_of_lineBreak cutAll, Context.afterAll_append_silent silent,
    tokensBehind_append_silent silent, meaning, unchanged, count_eq, Option.toList_none,
    List.map_nil, List.append_nil, ← readFrom_down]
  · rfl
  · change (0 : Int) < _ + 1
    omega
  · change (0 : Int) < _ + 1 + 1
    omega

/-! ## Where lines end -/

/-- A line feed of a text is known by its line. -/
theorem append_lineFeed_inj
    {front other back rest : List Char}
    (same : front ++ '\n' :: back = other ++ '\n' :: rest)
    (line : front.count '\n' = other.count '\n') :
    front = other ∧ back = rest := by
  obtain ⟨gap, rfl, gap_eq⟩ | ⟨gap, rfl, gap_eq⟩ := List.append_eq_append_iff.mp same
  all_goals
    cases gap with
    | nil =>
        cases gap_eq
        exact ⟨by simp, rfl⟩
    | cons c gap =>
        cases gap_eq
        rw [List.count_append, List.count_cons_self] at line
        omega

/-- Every end of a line among the tokens of some lexemes is a line break. -/
theorem exists_cut_of_mem_tokensBehind
    {text rest : List Char}
    {pieces : List Piece}
    (cut : Cut rest text pieces)
    {file : String}
    {context : Context}
    {before : List Char}
    {location : Location}
    (listed : ⟨.lineEnd, location⟩ ∈ tokensBehind file context before pieces) :
    ∃ first second front, text = first ++ '\n' :: second ∧
      Cut ('\n' :: (second ++ rest)) first front ∧
      (context.afterAll front).lineHasTokens = true ∧
      location = .behind file (before ++ first) := by
  induction cut generalizing context before with
  | nil => cases listed
  | @cons front text lexeme pieces spelled stops later hypothesis =>
      rw [tokensBehind, List.mem_append] at listed
      obtain here | below := listed
      · rw [List.mem_map] at here
        obtain ⟨content, meant, same⟩ := here
        rw [Option.mem_toList] at meant
        cases same
        obtain ⟨_, none, _⟩ | ⟨rfl, _, ended⟩ | ⟨_, _, content, plain, some⟩ :=
          context.content?_cases lexeme
        · rw [none] at meant
          cases meant
        · cases spelled
          have filled : context.lineHasTokens = true := by
            rw [ended] at meant
            by_contra empty
            rw [if_neg empty] at meant
            cases meant
          exact ⟨[], text, [], rfl, .nil, filled, by rw [List.append_nil]⟩
        · rw [some] at meant
          cases meant
          exact absurd rfl plain
      · obtain ⟨first, second, others, rfl, cut, filled, location_eq⟩ := hypothesis below
        refine ⟨front ++ first, second, ⟨lexeme, front⟩ :: others, (List.append_assoc ..).symm,
          .cons spelled ?_ cut, filled, by rw [location_eq, List.append_assoc]⟩
        rwa [List.append_assoc] at stops

/-- What is read of a source are the tokens of its lexemes, and the end of an open last line. -/
theorem exists_cut_of_read (source file : String) :
    ∃ text pieces rest, source.toList = text ++ rest ∧ Cut rest text pieces ∧
      ∀ token ∈ (read source file).tokens, token ∈ tokensBehind file {} [] pieces ∨
        token.location = .behind file source.toList := by
  obtain ⟨text, pieces, rest, standing, cut, ended⟩ := Lexeme.exists_cut source.toList
  refine ⟨text, pieces, rest, standing, cut, ?_⟩
  intro token listed
  obtain rfl | ⟨c, tail, error, rfl, failed⟩ := ended
  · rw [List.append_nil] at standing
    subst standing
    rw [read_of_cut_nil cut, spansOf, map_token_spansFrom cut, List.mem_append, List.mem_map]
      at listed
    obtain listed | ⟨content, _, rfl⟩ := listed
    · exact .inl listed
    · exact .inr rfl
  · rw [read_of_cut_error cut standing failed] at listed
    exact .inl listed

/-- An end of a line in front of a line feed is the break of a line with tokens. -/
theorem exists_cut_of_lineEnd
    {front back file : String}
    (listed : ⟨.lineEnd, .behind file front.toList⟩ ∈ (read (front ++ "\n" ++ back) file).tokens) :
    ∃ pieces, Cut ('\n' :: back.toList) front.toList pieces ∧
      (Context.afterAll {} pieces).lineHasTokens = true := by
  have source_eq : (front ++ "\n" ++ back).toList = front.toList ++ '\n' :: back.toList := by
    simp
  obtain ⟨text, pieces, rest, standing, cut, found⟩ :=
    exists_cut_of_read (front ++ "\n" ++ back) file
  rw [source_eq] at standing
  obtain inside | closing := found _ listed
  · obtain ⟨first, second, others, rfl, cutFirst, filled, location_eq⟩ :=
      exists_cut_of_mem_tokensBehind cut inside
    rw [List.append_assoc, List.cons_append] at standing
    have line := congrArg Location.line location_eq
    obtain ⟨rfl, back_eq⟩ := append_lineFeed_inj standing (by simpa [Location.behind] using line)
    rw [← back_eq] at cutFirst
    exact ⟨others, cutFirst, filled⟩
  · have line := congrArg Location.line closing
    rw [source_eq] at line
    simp only [Location.behind, List.count_append, List.count_cons_self] at line
    omega

/-- A filler moves the end of its line to the right. -/
theorem exists_read_filled
    {front filler back file : String}
    (isFiller : IsFiller filler.toList)
    (listed : ⟨.lineEnd, .behind file front.toList⟩ ∈ (read (front ++ "\n" ++ back) file).tokens) :
    ∃ (earlier : List Token) (later : Reading),
      read (front ++ "\n" ++ back) file =
        later.prepend (earlier ++ [⟨.lineEnd, .behind file front.toList⟩]) ∧
      read (front ++ filler ++ "\n" ++ back) file =
        later.prepend (earlier ++
          [⟨.lineEnd, (Location.behind file front.toList).right filler.length⟩]) := by
  obtain ⟨pieces, cut, filled⟩ := exists_cut_of_lineEnd listed
  obtain ⟨kept, dropped, added, rfl, silent, silentAdded, cutFilled⟩ := cut.exists_filled isFiller
  rw [← String.toList_append] at cutFilled
  have here := read_of_lineBreak cut file
  have there := read_of_lineBreak cutFilled file
  rw [Context.afterAll_append_silent silent] at filled
  have meaning : (Context.afterAll {} kept).content? .lineBreak = some .lineEnd := by
    rw [Context.content?, filled]
    rfl
  -- The lexemes on both sides differ in blanks and comments, and those have no tokens.
  rw [tokensBehind_append_silent silent, Context.afterAll_append_silent silent, meaning] at here
  rw [tokensBehind_append_silent silentAdded, Context.afterAll_append_silent silentAdded, meaning,
    String.toList_append, List.count_append,
    List.count_eq_zero_of_not_mem isFiller.lineFeed_not_mem,
    Location.behind_append isFiller.lineFeed_not_mem, String.length_toList] at there
  exact ⟨_, _, here, there⟩

end Token

theorem Failure.kind_down
    (lines : Int)
    (failure : Failure) :
    (failure.down lines).kind = failure.kind := by
  cases failure <;> rfl

namespace Assembly

/-- What is read alike below some tokens is assembled alike, on any lines. -/
theorem agree_of_down
    {first second file : String}
    {tokens : List Token}
    {later : Token.Reading}
    {lines : Int}
    (settings : Settings)
    (read : Token.read first file = later.prepend tokens)
    (readOther : Token.read second file = (later.down lines).prepend tokens) :
    Agree (ofSource settings first file) (ofSource settings second file) := by
  apply agree_ofSource <;> rw [read, readOther, Token.Reading.prepend, Token.Reading.prepend,
    Token.Reading.down]
  · rw [List.map_append, List.map_append, List.map_map]
    rfl
  · rw [Option.map_map]
    apply congrArg (Option.map · _)
    funext failure
    exact failure.kind_down lines

/-- A line of blanks and a comment moves what is read below it one line down, and nothing else
changes. At the end of a line, blanks and a comment move that end to the right, and nothing else
changes. The program is assembled alike in both cases. -/
theorem filler_invisible
    {filler : String}
    (isFiller : Lexeme.IsFiller filler.toList)
    (settings : Settings)
    (file front back : String) :
    (∀ tokens, Text.IsWholeLines front.toList → Token.ofSource front file = .ok tokens →
      ∃ later : Token.Reading,
        Token.read (front ++ back) file = later.prepend tokens ∧
        Token.read (front ++ filler ++ "\n" ++ back) file = (later.down 1).prepend tokens ∧
        Agree (ofSource settings (front ++ back) file)
          (ofSource settings (front ++ filler ++ "\n" ++ back) file)) ∧
    (⟨.lineEnd, .behind file front.toList⟩ ∈ (Token.read (front ++ "\n" ++ back) file).tokens →
      ∃ (earlier : List Token) (later : Token.Reading),
        Token.read (front ++ "\n" ++ back) file =
          later.prepend (earlier ++ [⟨.lineEnd, .behind file front.toList⟩]) ∧
        Token.read (front ++ filler ++ "\n" ++ back) file =
          later.prepend (earlier ++
            [⟨.lineEnd, (Location.behind file front.toList).right filler.length⟩]) ∧
        Agree (ofSource settings (front ++ "\n" ++ back) file)
          (ofSource settings (front ++ filler ++ "\n" ++ back) file)) := by
  constructor
  · intro tokens whole found
    obtain ⟨pieces, cut, rfl⟩ := Token.exists_cut_of_wholeLines whole found
    have read := Token.read_of_wholeLines cut whole back file
    have readOther := Token.read_below_filler cut whole isFiller back file
    exact ⟨_, read, readOther, agree_of_down settings read readOther⟩
  · intro listed
    obtain ⟨earlier, later, read, readOther⟩ := Token.exists_read_filled isFiller listed
    refine ⟨earlier, later, read, readOther, ?_⟩
    apply agree_ofSource <;> rw [read, readOther]
    · simp [Token.Reading.prepend]
    · rfl

/-- A comment with quotes above a line that cannot be read, and behind a quoted semicolon. -/
theorem filler_invisible_of_semicolons :
    (∃ (tokens : List Token) (later : Token.Reading),
      Token.ofSource ".data\n.code\n" "<input>" = .ok tokens ∧
      Token.read (".data\n.code\n" ++ "main: OUT ?") "<input>" = later.prepend tokens ∧
      Token.read (".data\n.code\n" ++ "\t; ';'" ++ "\n" ++ "main: OUT ?") "<input>" =
        (later.down 1).prepend tokens ∧
      later.failure.isSome = true) ∧
    ∃ assembly,
      ofSource {} (".data\n.code\nmain: OUT ';'" ++ "\t; ';'" ++ "\n" ++ "JMP main") "<input>" =
        .ok assembly ∧
      assembly.words = [19, 59, 6, 0, 0, 0] ∧ assembly.labels = ⟨[("main", 0)]⟩ := by
  have isFiller : Lexeme.IsFiller "\t; ';'".toList :=
    ⟨['\t'], "; ';'".toList, by decide, by simp [Lexeme.isBlank],
      .inr ⟨" ';'".toList, by decide, by decide⟩⟩
  constructor
  · have found : Token.ofSource ".data\n.code\n" "<input>" = .ok [
        ⟨.marker "data", ⟨"<input>", 1, 1⟩⟩, ⟨.lineEnd, ⟨"<input>", 1, 6⟩⟩,
        ⟨.marker "code", ⟨"<input>", 2, 1⟩⟩, ⟨.lineEnd, ⟨"<input>", 2, 6⟩⟩] := by
      decide +kernel
    obtain ⟨later, read, readOther, _⟩ :=
      (filler_invisible isFiller {} "<input>" ".data\n.code\n" "main: OUT ?").1 _
        (.inr ⟨".data\n.code".toList, by decide⟩) found
    have failed : (Token.read ".data\n.code\nmain: OUT ?" "<input>").failure.isSome = true := by
      decide +kernel
    have same := congrArg Token.Reading.failure read
    exact ⟨_, later, found, read, readOther, same ▸ failed⟩
  · obtain ⟨_, _, _, _, agree⟩ :=
      (filler_invisible isFiller {} "<input>" ".data\n.code\nmain: OUT ';'" "JMP main").2
        (by decide +kernel)
    have assembled : ofSource {} ".data\n.code\nmain: OUT ';'\nJMP main" "<input>" = .ok {
        words := [19, 59, 6, 0, 0, 0]
        labels := ⟨[("main", 0)]⟩
        entries := [⟨0, 3, "OUT", [19, 59]⟩, ⟨2, 4, "JMP", [6, 0]⟩]
        sourceLines := [".data", ".code", "main: OUT ';'", "JMP main"] } := by
      decide +kernel
    obtain ⟨assembly, made, same⟩ := agree.of_ok assembled
    exact ⟨assembly, made, same.words, same.labels⟩

end Assembly
end WordAsm
