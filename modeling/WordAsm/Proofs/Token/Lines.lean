import Mathlib.Data.List.Chain
import WordAsm.Proofs.Token.Language
import WordAsm.Proofs.Token.Spans

/-!
# Lines of tokens

A line feed is read as the end of its line, with one exception: behind a backslash between quotes
it belongs to a character. So the ends of lines stand on different lines in order, and every token
stands as many lines above the end of its line as there are such characters from it on. Each line
that holds a token has an end of its own exactly when no such character occurs.
-/

namespace WordAsm

/-! ## Lexemes that hold a line feed -/

namespace Lexeme

/-- The character that extends over a line break: a line feed behind a backslash. -/
def brokenCharacter : List Char :=
  ['\'', '\\', '\n', '\'']

theorem isNameCharacter_of_mem_name
    {name : String}
    (named : isName name = true) :
    ∀ c ∈ name.toList, isNameCharacter c = true := by
  obtain ⟨c, letters, rfl, _, characters⟩ := exists_of_isName named
  rwa [String.toList_ofList]

theorem lineFeed_not_mem_name
    {name : String}
    (named : isName name = true) :
    '\n' ∉ name.toList := by
  intro listed
  cases isNameCharacter_of_mem_name named '\n' listed

/-- All of a numeral could go on a name. -/
theorem Numeral.isNameCharacter_of_mem
    {front : List Char}
    {value : Nat}
    (numeral : Numeral front value) :
    ∀ c ∈ front, isNameCharacter c = true := by
  cases numeral with
  | intro announced _ all _ =>
      rw [List.forall_mem_append]
      constructor
      · cases announced with
        | bare => exact List.forall_mem_nil _
        | letter found =>
            rw [List.forall_mem_cons, List.forall_mem_singleton]
            exact ⟨rfl, (isNameCharacter_iff _).mpr (.inl (Radix.isAlpha_of_ofLetter? found))⟩
      · exact fun c listed => Radix.isNameCharacter_of_hasDigit (all c listed)

/-- Between quotes a line feed stands only behind a backslash. -/
theorem Quoted.eq_of_lineFeed_mem
    {front : List Char}
    {c : Char}
    (quoted : Quoted front c)
    (listed : '\n' ∈ front) :
    front = ['\\', '\n'] := by
  cases quoted with
  | plain feed _ =>
      rw [List.mem_singleton] at listed
      exact absurd listed.symm feed
  | escape _ =>
      rw [List.mem_cons, List.mem_singleton] at listed
      obtain same | rfl := listed
      · cases same
      · rfl
  | hexadecimal _ _ all =>
      rw [List.mem_cons, List.mem_cons] at listed
      obtain same | same | listed := listed
      · cases same
      · cases same
      · cases isNameCharacter_of_isHexDigit (all '\n' listed)

/-- A character that neither goes on a name nor is a mark stands only in blanks, comments and line
breaks, and between quotes. -/
theorem Spelled.cases_of_mem
    {front : List Char}
    {lexeme : Lexeme}
    {c : Char}
    (spelled : Spelled front lexeme)
    (listed : c ∈ front)
    (noName : ¬ isNameCharacter c = true)
    (noMark : c ∉ [',', '.', ':', '-', '\'']) :
    lexeme = .blank ∧ isBlank c = true ∨ lexeme = .comment ∧ c ≠ '\n' ∨ lexeme = .lineBreak ∨
      ∃ body value, front = '\'' :: body ++ ['\''] ∧ Quoted body value ∧ c ∈ body := by
  cases spelled with
  | blank _ all => exact .inl ⟨rfl, all c listed⟩
  | comment all =>
      refine .inr (.inl ⟨rfl, ?_⟩)
      obtain rfl | listed := List.mem_cons.mp listed
      · decide
      · exact all c listed
  | lineBreak => exact .inr (.inr (.inl rfl))
  | comma =>
      rw [List.mem_singleton.mp listed] at noMark
      exact absurd (by decide) noMark
  | marker named =>
      obtain rfl | listed := List.mem_cons.mp listed
      · exact absurd (by decide) noMark
      · exact absurd (isNameCharacter_of_mem_name named c listed) noName
  | label named _ =>
      rw [List.mem_append, List.mem_singleton] at listed
      obtain listed | rfl := listed
      · exact absurd (isNameCharacter_of_mem_name named c listed) noName
      · exact absurd (by decide) noMark
  | word named => exact absurd (isNameCharacter_of_mem_name named c listed) noName
  | number numeral => exact absurd (numeral.isNameCharacter_of_mem c listed) noName
  | negative numeral =>
      obtain rfl | listed := List.mem_cons.mp listed
      · exact absurd (by decide) noMark
      · exact absurd (numeral.isNameCharacter_of_mem c listed) noName
  | @character body value quoted =>
      rw [List.mem_append, List.mem_cons, List.mem_singleton] at listed
      obtain (rfl | listed) | rfl := listed
      · exact absurd (by decide) noMark
      · exact .inr (.inr (.inr ⟨body, value, rfl, quoted, listed⟩))
      · exact absurd (by decide) noMark

/-- Only line breaks and broken characters hold a line feed. -/
theorem Spelled.eq_of_lineFeed_mem
    {front : List Char}
    {lexeme : Lexeme}
    (spelled : Spelled front lexeme)
    (listed : '\n' ∈ front) :
    lexeme = .lineBreak ∨ front = brokenCharacter := by
  obtain ⟨_, blank⟩ | ⟨_, inside⟩ | lineBreak | ⟨body, _, rfl, quoted, listed⟩ :=
    spelled.cases_of_mem listed (by decide) (by decide)
  · cases blank
  · exact absurd rfl inside
  · exact .inl lineBreak
  · rw [quoted.eq_of_lineFeed_mem listed]
    exact .inr rfl

/-- A broken character is the character line feed. -/
theorem Spelled.eq_of_brokenCharacter
    {lexeme : Lexeme}
    (spelled : Spelled brokenCharacter lexeme) :
    lexeme = .character '\n' := by
  have stops : lexeme.StopsAt ([] : List Char).head? := by
    cases lexeme <;> simp [StopsAt]
  obtain ⟨c, tail, same, read⟩ := spelled.exists_scan stops
  cases same
  cases read
  rfl

/-- Whether no piece is a broken character. -/
def Unbroken (pieces : List Piece) : Prop :=
  ∀ piece ∈ pieces, piece.text ≠ brokenCharacter

/-- No piece but a line break extends over one exactly when no piece is a broken character. -/
theorem Cut.lineFeed_not_mem_iff
    {text : List Char}
    {pieces : List Piece}
    (cut : Cut [] text pieces) :
    (∀ piece ∈ pieces, piece.lexeme ≠ .lineBreak → '\n' ∉ piece.text) ↔ Unbroken pieces := by
  constructor
  · intro within piece listed broken
    have spelled := cut.spelled piece listed
    rw [broken] at spelled
    have inner : piece.lexeme ≠ .lineBreak := by simp [spelled.eq_of_brokenCharacter]
    exact within piece listed inner (by rw [broken]; decide)
  · intro unbroken piece listed inner feed
    obtain same | broken := (cut.spelled piece listed).eq_of_lineFeed_mem feed
    · exact inner same
    · exact unbroken piece listed broken

end Lexeme

/-! ## Spans one behind the other -/

namespace Token

/-- What a lexeme does to the line that it stands on: nothing if it only separates others, end it
if it is a line break, and fill it otherwise. The break of an empty line has no meaning. -/
theorem Context.content?_cases
    (context : Context)
    (lexeme : Lexeme) :
    ((lexeme = .blank ∨ lexeme = .comment) ∧ context.content? lexeme = none ∧
        context.after lexeme = context) ∨
      (lexeme = .lineBreak ∧ (context.after lexeme).lineHasTokens = false ∧
        context.content? lexeme = if context.lineHasTokens then some .lineEnd else none) ∨
      (lexeme ≠ .lineBreak ∧ (context.after lexeme).lineHasTokens = true ∧
        ∃ content, content ≠ .lineEnd ∧ context.content? lexeme = some content) := by
  cases lexeme with
  | blank | comment | lineBreak => simp [content?, after]
  | word name => simp [content?, after, (context.wordContent_plain name).1]
  | comma | marker | label | number | character => simp [content?, after]

namespace Span

/-- Number of line feeds before a span. -/
def line (span : Span) : Nat :=
  span.before.count '\n'

/-- The first line on which something can stand behind a span. -/
def below (span : Span) : Nat :=
  if span.content = .lineEnd then span.line + 1 else span.line + span.text.count '\n'

theorem line_le_below (span : Span) :
    span.line ≤ span.below := by
  unfold below
  split <;> omega

/-- How a span stands behind the one before it: on the line where that one stops, or somewhere
below an end of a line, where no second end can follow. -/
def Follows (first second : Span) : Prop :=
  first.below ≤ second.line ∧
    (first.content = .lineEnd → second.content ≠ .lineEnd) ∧
    (first.content ≠ .lineEnd → second.line = first.below)

end Span

/-- The first span behind some text stands on the line that the text leads to, unless that line is
empty so far; then it is no end of a line. -/
theorem head?_spansFrom
    {text : List Char}
    {pieces : List Lexeme.Piece}
    (cut : Lexeme.Cut [] text pieces)
    (context : Context)
    (before : List Char) :
    ∀ span ∈ (spansFrom context before pieces).head?,
      before.count '\n' ≤ span.line ∧
        (context.lineHasTokens = true → span.line = before.count '\n') ∧
        (context.lineHasTokens = false → span.content ≠ .lineEnd) := by
  induction cut generalizing context before with
  | nil =>
      cases filled : context.lineHasTokens <;>
        simp [spansFrom, Context.closing, filled, Span.line]
  | @cons front rest lexeme pieces spelled _ _ hypothesis =>
      intro span first
      have later := hypothesis (context.after lexeme) (before ++ front)
      rw [List.count_append] at later
      rw [spansFrom] at first
      obtain ⟨separator, meant, same⟩ | ⟨rfl, empty, meant⟩ | ⟨_, _, content, inner, meant⟩ :=
        context.content?_cases lexeme
      · have within : front.count '\n' = 0 := by
          rw [List.count_eq_zero]
          intro feed
          obtain rfl | rfl := spelled.eq_of_lineFeed_mem feed
          · simp at separator
          · simp [spelled.eq_of_brokenCharacter] at separator
        rw [same, within] at later
        rw [meant, same] at first
        exact later span first
      · cases filled : context.lineHasTokens with
        | true =>
            rw [meant, filled] at first
            cases first
            simp [Span.line]
        | false =>
            rw [meant, filled] at first
            obtain ⟨lines, _, inner⟩ := later span first
            exact ⟨by omega, by simp, fun _ => inner empty⟩
      · rw [meant] at first
        cases first
        exact ⟨Nat.le_refl _, fun _ => rfl, fun _ => inner⟩

/-- The spans of a text stand one behind the other. -/
theorem isChain_spansFrom
    {text : List Char}
    {pieces : List Lexeme.Piece}
    (cut : Lexeme.Cut [] text pieces)
    (context : Context)
    (before : List Char) :
    (spansFrom context before pieces).IsChain Span.Follows := by
  induction cut generalizing context before with
  | nil =>
      cases filled : context.lineHasTokens <;> simp [spansFrom, Context.closing, filled]
  | @cons front rest lexeme pieces spelled _ cut hypothesis =>
      have later := hypothesis (context.after lexeme) (before ++ front)
      have next := head?_spansFrom cut (context.after lexeme) (before ++ front)
      rw [List.count_append] at next
      rw [spansFrom]
      obtain ⟨_, meant, _⟩ | ⟨rfl, empty, meant⟩ | ⟨_, filled, content, inner, meant⟩ :=
        context.content?_cases lexeme
      · rw [meant]
        exact later
      · cases filled : context.lineHasTokens with
        | false =>
            rw [meant, filled]
            exact later
        | true =>
            rw [meant, filled]
            refine List.isChain_cons.mpr ⟨fun span first => ?_, later⟩
            obtain ⟨lines, _, inner⟩ := next span first
            cases spelled with
            | lineBreak =>
                refine ⟨?_, fun _ => inner empty, fun other => absurd rfl other⟩
                simpa [Span.below, Span.line] using lines
      · rw [meant]
        refine List.isChain_cons.mpr ⟨fun span first => ?_, later⟩
        obtain ⟨_, same, _⟩ := next span first
        have below_eq : Span.below ⟨content, before, front⟩ = span.line := by
          rw [same filled, Span.below, if_neg inner, Span.line]
        exact ⟨Nat.le_of_eq below_eq, fun ending => absurd ending inner, fun _ => below_eq.symm⟩

/-- What stands behind a span stands below it. -/
theorem pairwise_below
    {spans : List Span}
    (chain : spans.IsChain Span.Follows) :
    spans.Pairwise fun first second => first.below ≤ second.line := by
  let lower : Trans (fun first second : Span => first.below ≤ second.line)
      (fun first second : Span => first.below ≤ second.line)
      (fun first second : Span => first.below ≤ second.line) :=
    ⟨fun {_ second _} above under => above.trans (second.line_le_below.trans under)⟩
  exact (chain.imp fun _ _ follows => follows.1).pairwise

/-- A span stands above the end of its line by the line feeds that it and the spans between them
hold. -/
theorem line_ending
    {span ending : Span}
    {block back : List Span}
    (chain : (span :: block ++ ending :: back).IsChain Span.Follows)
    (inner : ∀ other ∈ span :: block, other.content ≠ .lineEnd) :
    ending.line = span.line + ((span :: block).flatMap (·.text)).count '\n' := by
  induction block generalizing span with
  | nil =>
      have follows := (List.isChain_cons_cons.mp chain).1
      rw [List.flatMap_singleton, follows.2.2 (inner span List.mem_cons_self), Span.below,
        if_neg (inner span List.mem_cons_self)]
  | cons next block hypothesis =>
      rw [List.forall_mem_cons] at inner
      obtain ⟨follows, later⟩ := List.isChain_cons_cons.mp chain
      rw [hypothesis later inner.2, follows.2.2 inner.1, Span.below, if_neg inner.1,
        Nat.add_assoc, ← List.count_append]
      rfl

/-- Where the last line is ended, every line is. -/
theorem exists_ending
    {front back : List Span}
    {span : Span}
    (ended : ∀ last ∈ (front ++ span :: back).getLast?, last.content = .lineEnd)
    (inner : span.content ≠ .lineEnd) :
    ∃ block ending rest, back = block ++ ending :: rest ∧
      (∀ other ∈ span :: block, other.content ≠ .lineEnd) ∧ ending.content = .lineEnd := by
  induction back generalizing front span with
  | nil => exact absurd (ended span (by simp)) inner
  | cons next back hypothesis =>
      by_cases ending : next.content = .lineEnd
      · exact ⟨[], next, back, rfl, by simpa using inner, ending⟩
      · have later : ∀ last ∈ (front ++ [span] ++ next :: back).getLast?,
            last.content = .lineEnd := by
          simpa using ended
        obtain ⟨block, last, rest, rfl, others, final⟩ := hypothesis later ending
        refine ⟨next :: block, last, rest, rfl, ?_, final⟩
        rw [List.forall_mem_cons]
        exact ⟨inner, others⟩

/-! ## Tokens line by line -/

/-- Tokens with no end of a line between them stand on the line of the end that closes them. -/
def SharesLines (tokens : List Token) : Prop :=
  ∀ front block ending back, tokens = front ++ block ++ ending :: back →
    (∀ token ∈ block, token.content ≠ .lineEnd) → ending.content = .lineEnd →
    ∀ token ∈ block, token.location.line = ending.location.line

/-- An end stands on exactly those lines on which another token stands. -/
def EndsLines (tokens : List Token) : Prop :=
  ∀ line,
    (∃ token ∈ tokens, token.content = .lineEnd ∧ token.location.line = line) ↔
      ∃ token ∈ tokens, token.content ≠ .lineEnd ∧ token.location.line = line

/-- Spans one behind the other from the start of a source to its end. -/
structure Arranged (spans : List Span) : Prop where
  chain : spans.IsChain Span.Follows
  started : ∀ first ∈ spans.head?, first.content ≠ .lineEnd
  ended : ∀ last ∈ spans.getLast?, last.content = .lineEnd

/-- Spans none of which extends over a line break, except for the ends of lines. -/
def WithinLines (spans : List Span) : Prop :=
  ∀ span ∈ spans, span.content ≠ .lineEnd → '\n' ∉ span.text

@[simp] theorem content_token
    (file : String)
    (span : Span) :
    (span.token file).content = span.content := rfl

theorem line_token
    (file : String)
    (span : Span) :
    (span.token file).location.line = span.line + 1 := rfl

theorem WithinLines.count_eq_zero
    {spans block : List Span}
    (within : WithinLines spans)
    (part : block ⊆ spans)
    (inner : ∀ span ∈ block, span.content ≠ .lineEnd) :
    (block.flatMap (·.text)).count '\n' = 0 := by
  rw [List.count_eq_zero, List.mem_flatMap]
  rintro ⟨span, listed, feed⟩
  exact within span (part listed) (inner span listed) feed

namespace Arranged

variable {spans : List Span}

/-- Every token stands on the line of the end that closes it exactly when no token extends over a
line break. -/
theorem sharesLines_iff
    (arranged : Arranged spans)
    (file : String) :
    SharesLines (spans.map (Span.token file)) ↔ WithinLines spans := by
  constructor
  · intro shares span listed inner feed
    obtain ⟨front, back, rfl⟩ := List.append_of_mem listed
    obtain ⟨block, ending, rest, rfl, others, final⟩ := exists_ending arranged.ended inner
    have distance := line_ending arranged.chain.right_of_append others
    have positive : 0 < ((span :: block).flatMap (·.text)).count '\n' := by
      rw [List.count_pos_iff, List.flatMap_cons]
      exact List.mem_append_left _ feed
    have same := shares (front.map (Span.token file)) ((span :: block).map (Span.token file))
      (ending.token file) (rest.map (Span.token file)) (by simp) (by simpa using others) final
      (span.token file) (by simp)
    rw [line_token, line_token] at same
    omega
  · intro within front block ending back tokens_eq inner final token listed
    rw [List.append_assoc] at tokens_eq
    obtain ⟨before, _, rfl, -, later_eq⟩ := List.map_eq_append_iff.mp tokens_eq
    obtain ⟨row, _, rfl, rfl, rest_eq⟩ := List.map_eq_append_iff.mp later_eq
    obtain ⟨last, others, rfl, rfl, -⟩ := List.map_eq_cons_iff.mp rest_eq
    obtain ⟨span, among, rfl⟩ := List.mem_map.mp listed
    obtain ⟨left, right, rfl⟩ := List.append_of_mem among
    have chain := arranged.chain.right_of_append
    rw [List.append_assoc] at chain
    have inside : ∀ other ∈ span :: right, other.content ≠ .lineEnd := by
      intro other later
      exact inner _ (List.mem_map_of_mem (List.mem_append_right left later))
    have part : span :: right ⊆ before ++ (left ++ span :: right ++ last :: others) := by
      intro other later
      simp only [List.mem_append]
      exact .inr (.inl (.inr later))
    rw [line_token, line_token, line_ending chain.right_of_append inside,
      within.count_eq_zero part inside, Nat.add_zero]

/-- The ends of lines stand on different lines, in order. -/
theorem pairwise_lineEnds
    (arranged : Arranged spans)
    (file : String) :
    (((spans.map (Span.token file)).filter fun token => token.content = .lineEnd).map
      (·.location.line)).Pairwise (· < ·) := by
  rw [List.filter_map, List.map_map, List.pairwise_map, List.pairwise_filter]
  refine (pairwise_below arranged.chain).imp ?_
  intro first second under ending _
  have below_eq : first.below = first.line + 1 := if_pos (of_decide_eq_true ending)
  change (first.line + 1 : Int) < second.line + 1
  omega

/-- Every line with a token has an end of its own exactly when no token extends over a line
break. -/
theorem endsLines_iff
    (arranged : Arranged spans)
    (file : String) :
    EndsLines (spans.map (Span.token file)) ↔ WithinLines spans := by
  constructor
  · intro ends span listed inner feed
    obtain ⟨token, found, final, same⟩ := (ends (span.token file).location.line).mpr
      ⟨span.token file, List.mem_map_of_mem listed, inner, rfl⟩
    obtain ⟨ending, among, rfl⟩ := List.mem_map.mp found
    have symmetric : Std.Symm fun first second : Span =>
        first.below ≤ second.line ∨ second.below ≤ first.line := ⟨fun _ _ => Or.symm⟩
    have either : spans.Pairwise fun first second =>
        first.below ≤ second.line ∨ second.below ≤ first.line :=
      (pairwise_below arranged.chain).imp Or.inl
    have apart := either.forall listed among (by rintro rfl; exact inner final)
    have ending_below : ending.below = ending.line + 1 := if_pos final
    have span_below : span.line < span.below := by
      rw [Span.below, if_neg inner]
      exact Nat.lt_add_of_pos_right (List.count_pos_iff.mpr feed)
    rw [line_token, line_token] at same
    omega
  · intro within line
    constructor
    · rintro ⟨token, among, final, rfl⟩
      obtain ⟨ending, listed, rfl⟩ := List.mem_map.mp among
      obtain ⟨front, back, rfl⟩ := List.append_of_mem listed
      obtain rfl | ⟨front, span, rfl⟩ := List.eq_nil_or_concat front
      · exact absurd final (arranged.started ending rfl)
      · have chain := arranged.chain
        rw [List.concat_append] at chain
        have follows := (List.isChain_cons_cons.mp chain.right_of_append).1
        have inner : span.content ≠ .lineEnd := fun other => follows.2.1 other final
        have feedless := within span (by simp) inner
        refine ⟨span.token file, by simp, inner, ?_⟩
        rw [line_token, line_token, follows.2.2 inner, Span.below, if_neg inner,
          List.count_eq_zero.mpr feedless, Nat.add_zero]
    · rintro ⟨token, among, inner, rfl⟩
      obtain ⟨span, listed, rfl⟩ := List.mem_map.mp among
      obtain ⟨front, back, rfl⟩ := List.append_of_mem listed
      obtain ⟨block, ending, rest, rfl, others, final⟩ := exists_ending arranged.ended inner
      have part : span :: block ⊆ front ++ span :: (block ++ ending :: rest) := by
        intro other later
        rw [← List.cons_append]
        exact List.mem_append_right _ (List.mem_append_left _ later)
      refine ⟨ending.token file, by simp, final, ?_⟩
      rw [line_token, line_token, line_ending arranged.chain.right_of_append others,
        within.count_eq_zero part others, Nat.add_zero]

end Arranged

/-! ## Tokens of a source -/

/-- Every span but an end of a line covers the text of a lexeme that is no line break. -/
theorem exists_piece_of_mem_spansFrom
    {context : Context}
    {before : List Char}
    {pieces : List Lexeme.Piece}
    {span : Span}
    (listed : span ∈ spansFrom context before pieces)
    (inner : span.content ≠ .lineEnd) :
    ∃ piece ∈ pieces, piece.lexeme ≠ .lineBreak ∧ piece.text = span.text := by
  induction pieces generalizing context before with
  | nil =>
      obtain ⟨content, among, rfl⟩ := List.mem_map.mp listed
      rw [Context.closing] at among
      split at among
      · exact absurd (List.mem_singleton.mp among) inner
      · cases among
  | cons piece pieces hypothesis =>
      rw [spansFrom, List.mem_append] at listed
      obtain here | later := listed
      · obtain ⟨content, meant, rfl⟩ := List.mem_map.mp here
        refine ⟨piece, List.mem_cons_self, ?_, rfl⟩
        intro lineBreak
        rw [lineBreak, Context.content?, Option.mem_toList] at meant
        split at meant
        · exact inner (Option.some.inj meant).symm
        · cases meant
      · obtain ⟨other, among, same⟩ := hypothesis later
        exact ⟨other, List.mem_cons_of_mem piece among, same⟩

/-- Every character of a source has a span. -/
theorem exists_span_of_character
    {context : Context}
    {before : List Char}
    {pieces : List Lexeme.Piece}
    {piece : Lexeme.Piece}
    {c : Char}
    (listed : piece ∈ pieces)
    (character : piece.lexeme = .character c) :
    ∃ span ∈ spansFrom context before pieces, span.content ≠ .lineEnd ∧
      span.text = piece.text := by
  induction pieces generalizing context before with
  | nil => cases listed
  | cons first pieces hypothesis =>
      rw [spansFrom]
      obtain rfl | later := List.mem_cons.mp listed
      · refine ⟨⟨.character (String.ofList [c]), before, piece.text⟩, ?_, by simp, rfl⟩
        simp [character, Context.content?]
      · obtain ⟨span, among, same⟩ := hypothesis later
        exact ⟨span, List.mem_append_right _ among, same⟩

/-- No token extends over a line break exactly when no piece is a broken character. -/
theorem withinLines_iff
    {text : List Char}
    {pieces : List Lexeme.Piece}
    (cut : Lexeme.Cut [] text pieces) :
    WithinLines (spansOf pieces) ↔ Lexeme.Unbroken pieces := by
  constructor
  · intro within piece listed broken
    have spelled := cut.spelled piece listed
    rw [broken] at spelled
    obtain ⟨span, among, inner, same⟩ :=
      exists_span_of_character listed spelled.eq_of_brokenCharacter
    exact within span among inner (by rw [same, broken]; decide)
  · intro unbroken span listed inner
    obtain ⟨piece, among, other, same⟩ := exists_piece_of_mem_spansFrom listed inner
    rw [← same]
    exact cut.lineFeed_not_mem_iff.mpr unbroken piece among other

/-- The spans of a source stand one behind the other from its start to its end. -/
theorem arranged_spansOf
    {source file : String}
    {pieces : List Lexeme.Piece}
    (cut : Lexeme.Cut [] source.toList pieces)
    (read : ofSource source file = .ok ((spansOf pieces).map (Span.token file))) :
    Arranged (spansOf pieces) where
  chain := isChain_spansFrom cut {} []
  started first listed := (head?_spansFrom cut {} [] first listed).2.2 rfl
  ended last listed := by
    have readable : Readable (((spansOf pieces).map (Span.token file)).map (·.content)) :=
      Yields.readable ⟨_, read, rfl⟩
    rw [List.map_map] at readable
    apply readable.ended last.content
    rw [List.getLast?_map]
    exact Option.mem_map_of_mem _ listed

/-- In every source that can be read, the ends of lines stand on different lines in order. Every
token stands on the line of the end that closes it, every line with a token has an end of its own,
and nothing but a line break extends over one, in each case exactly if no character is written as a
backslash and a line feed between quotes. -/
theorem lines_of_ofSource
    {source file : String}
    {tokens : List Token}
    (read : ofSource source file = .ok tokens) :
    ∃ pieces, Lexeme.Cut [] source.toList pieces ∧
      tokens = (spansOf pieces).map (Span.token file) ∧
      ((tokens.filter fun token => token.content = .lineEnd).map (·.location.line)).Pairwise
        (· < ·) ∧
      (SharesLines tokens ↔ Lexeme.Unbroken pieces) ∧
      (EndsLines tokens ↔ Lexeme.Unbroken pieces) ∧
      ((∀ piece ∈ pieces, piece.lexeme ≠ .lineBreak → '\n' ∉ piece.text) ↔
        Lexeme.Unbroken pieces) := by
  obtain ⟨pieces, cut, rfl⟩ := (ofSource_eq_ok_iff ..).mp read
  have arranged := arranged_spansOf cut read
  have within := withinLines_iff cut
  exact ⟨pieces, cut, rfl, arranged.pairwise_lineEnds file,
    (arranged.sharesLines_iff file).trans within, (arranged.endsLines_iff file).trans within,
    cut.lineFeed_not_mem_iff⟩

/-- A line feed behind a backslash leaves the first line without an end. -/
theorem lines_of_brokenCharacter :
    ∃ tokens, ofSource "OUT '\\\n'\nHALT" "<input>" = .ok tokens ∧
      (tokens.filter fun token => token.content = .lineEnd).map (·.location.line) = [2, 3] ∧
      [(2 : Int), 3].Pairwise (· < ·) ∧ ¬ SharesLines tokens ∧ ¬ EndsLines tokens := by
  let opened : List Token :=
    [⟨.mnemonic "OUT", ⟨"<input>", 1, 1⟩⟩, ⟨.character "\n", ⟨"<input>", 1, 5⟩⟩]
  let ending : Token := ⟨.lineEnd, ⟨"<input>", 2, 2⟩⟩
  let below : List Token :=
    [⟨.mnemonic "HALT", ⟨"<input>", 3, 1⟩⟩, ⟨.lineEnd, ⟨"<input>", 3, 5⟩⟩]
  have read : ofSource "OUT '\\\n'\nHALT" "<input>" = .ok (opened ++ ending :: below) := by
    decide +kernel
  obtain ⟨pieces, _, _, increasing, shares_iff, ends_iff, _⟩ := lines_of_ofSource read
  have apart : ¬ SharesLines (opened ++ ending :: below) := by
    intro shares
    have same := shares [] opened ending below rfl (by decide) rfl _ List.mem_cons_self
    cases same
  have broken : ¬ Lexeme.Unbroken pieces := by rwa [← shares_iff]
  exact ⟨_, read, rfl, increasing, apart, by rwa [ends_iff]⟩

end Token
end WordAsm
