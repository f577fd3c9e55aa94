import WordAsm.Proofs.Token.Lines

/-!
# Tokens tile their source

Every token covers an extent of its source, and the extents follow one another. An extent holds a
way to write its token; between two of them stand blanks, comments and the breaks of empty lines,
and nothing else. So every character of the source belongs to one token or is accounted for, and
the place of a token is counted from the text before its extent.
-/

namespace WordAsm
namespace Token

/-! ## Ways to write a token -/

/-- The ways to write a content. Mnemonics and type words may have small letters. -/
inductive Content.Spelled : List Char → Content → Prop
  | marker {name : String} :
      Lexeme.isName name = true →
      Spelled ('.' :: name.toList) (.marker name)
  | label {name : String} :
      Lexeme.isName name = true →
      Spelled (name.toList ++ [':']) (.label name)
  | mnemonic {word : String} :
      Lexeme.isName word = true →
      Spelled word.toList (.mnemonic (String.ofList (word.toList.map Char.toUpper)))
  | typeWord {word : String} :
      Lexeme.isName word = true →
      Spelled word.toList (.typeWord (String.ofList (word.toList.map Char.toUpper)))
  | register {name : String} :
      Lexeme.isName name = true →
      Spelled name.toList (.register name)
  | symbol {name : String} :
      Lexeme.isName name = true →
      Spelled name.toList (.symbol name)
  | number {front : List Char} {value : Nat} :
      Lexeme.Numeral front value →
      Spelled front (.number value)
  | negative {front : List Char} {value : Nat} :
      Lexeme.Numeral front value →
      Spelled ('-' :: front) (.number (-value))
  | character {front : List Char} {c : Char} :
      Lexeme.Quoted front c →
      Spelled ('\'' :: front ++ ['\'']) (.character (String.ofList [c]))
  | comma :
      Spelled [','] .comma
  | lineEnd :
      Spelled ['\n'] .lineEnd

/-- A word is a way to write what it means. -/
theorem Context.spelled_wordContent
    (context : Context)
    {name : String}
    (named : Lexeme.isName name = true) :
    (context.wordContent name).Spelled name.toList := by
  unfold wordContent
  dsimp only
  split_ifs
  · exact .mnemonic named
  · exact .typeWord named
  · exact .register named
  · exact .symbol named

/-- A way to write a lexeme is a way to write what the lexeme means. -/
theorem Context.spelled_of_content?
    {context : Context}
    {front : List Char}
    {lexeme : Lexeme}
    {content : Content}
    (spelled : Lexeme.Spelled front lexeme)
    (meant : context.content? lexeme = some content) :
    content.Spelled front := by
  cases spelled with
  | blank | comment => cases meant
  | lineBreak =>
      rw [content?] at meant
      split at meant
      · cases meant
        exact .lineEnd
      · cases meant
  | comma =>
      cases meant
      exact .comma
  | marker named =>
      cases meant
      exact .marker named
  | label named =>
      cases meant
      exact .label named
  | word named =>
      cases meant
      exact context.spelled_wordContent named
  | number numeral =>
      cases meant
      exact .number numeral
  | negative numeral =>
      cases meant
      exact .negative numeral
  | character quoted =>
      cases meant
      exact .character quoted

/-! ## Text between tokens -/

/-- A text without tokens in front of the next character: blanks, comments up to the end of their
line and, on a line that holds no token yet, line breaks. -/
inductive Skipped (fresh : Bool) (next : Option Char) : List Char → Prop
  | nil :
      Skipped fresh next []
  | blank {c : Char} {text : List Char} :
      c = ' ' ∨ c = '\t' ∨ c = '\r' →
      Skipped fresh next text →
      Skipped fresh next (c :: text)
  | comment {body text : List Char} :
      '\n' ∉ body →
      (∀ c ∈ text.head?.or next, c = '\n') →
      Skipped fresh next text →
      Skipped fresh next (';' :: body ++ text)
  | lineBreak {text : List Char} :
      fresh = true →
      Skipped fresh next text →
      Skipped fresh next ('\n' :: text)

theorem Skipped.append
    {fresh : Bool}
    {next : Option Char}
    {front back : List Char}
    (before : Skipped fresh (back.head?.or next) front)
    (behind : Skipped fresh next back) :
    Skipped fresh next (front ++ back) := by
  induction before with
  | nil => exact behind
  | blank blank _ hypothesis => exact .blank blank hypothesis
  | @comment body text feedless stops _ hypothesis =>
      rw [List.append_assoc]
      refine .comment feedless ?_ hypothesis
      rwa [List.head?_append, Option.or_assoc]
  | lineBreak allowed _ hypothesis => exact .lineBreak allowed hypothesis

/-- A lexeme without a meaning is skipped. -/
theorem skipped_of_content?
    {context : Context}
    {front : List Char}
    {next : Option Char}
    {lexeme : Lexeme}
    (spelled : Lexeme.Spelled front lexeme)
    (stops : lexeme.StopsAt next)
    (meaningless : context.content? lexeme = none) :
    Skipped (!context.lineHasTokens) next front := by
  cases spelled with
  | blank nonempty all =>
      clear nonempty stops meaningless
      induction front with
      | nil => exact .nil
      | cons c front hypothesis =>
          rw [List.forall_mem_cons] at all
          refine .blank ?_ (hypothesis all.2)
          simpa [Lexeme.isBlank, or_assoc] using all.1
  | @comment body all =>
      have feedless : '\n' ∉ body := fun listed => all '\n' listed rfl
      have skipped : Skipped (!context.lineHasTokens) next (';' :: body ++ []) :=
        .comment feedless (by rwa [List.head?_nil, Option.none_or]) .nil
      rwa [List.append_nil] at skipped
  | lineBreak =>
      refine .lineBreak ?_ .nil
      rw [Context.content?] at meaningless
      split at meaningless
      · cases meaningless
      · next empty => simpa using empty
  | comma | marker | label | word | number | negative | character => cases meaningless

/-! ## Tokens and their extents -/

/-- An extent of a source: the characters from one position up to another. -/
structure Extent where
  start : Nat
  stop : Nat
  deriving DecidableEq

/-- The characters of an extent. -/
def Extent.text
    (source : List Char)
    (extent : Extent) : List Char :=
  (source.take extent.stop).drop extent.start

/-- Tokens that tile a source from a position on, with the extents that they cover. What stands
before an extent is skipped; `fresh` says whether no token precedes it on its line. The end of the
source covers nothing, and closes a line that holds tokens. -/
inductive Tiled (source : List Char) (file : String) :
    Nat → Bool → List Token → List Extent → Prop
  | done {position : Nat} :
      position ≤ source.length →
      Skipped true none (Extent.text source ⟨position, source.length⟩) →
      Tiled source file position true [] []
  | close {position : Nat} :
      position ≤ source.length →
      Skipped false none (Extent.text source ⟨position, source.length⟩) →
      Tiled source file position false [⟨.lineEnd, .behind file source⟩]
        [⟨source.length, source.length⟩]
  | token {position : Nat} {fresh : Bool} {token : Token} {extent : Extent} {tokens : List Token}
      {extents : List Extent} :
      position ≤ extent.start →
      Skipped fresh source[extent.start]? (Extent.text source ⟨position, extent.start⟩) →
      extent.start < extent.stop →
      extent.stop ≤ source.length →
      token.content.Spelled (extent.text source) →
      token.location = .behind file (source.take extent.start) →
      Tiled source file extent.stop (token.content = .lineEnd) tokens extents →
      Tiled source file position fresh (token :: tokens) (extent :: extents)

/-- The extent of a span. -/
def Span.extent (span : Span) : Extent where
  start := span.before.length
  stop := span.before.length + span.text.length

/-- A text in the middle of a source. -/
theorem Extent.text_append
    (front middle back : List Char) :
    Extent.text (front ++ middle ++ back) ⟨front.length, front.length + middle.length⟩ =
      middle := by
  rw [Extent.text, ← List.length_append, List.take_left, List.drop_left]

/-- The token of a span covers the text of the span, behind a part that is skipped. -/
theorem Tiled.cons
    {file : String}
    {front gap text rest : List Char}
    {fresh : Bool}
    {content : Content}
    {tokens : List Token}
    {extents : List Extent}
    (skipped : Skipped fresh (text ++ rest).head? gap)
    (nonempty : text ≠ [])
    (spelled : content.Spelled text)
    (tiled : Tiled (front ++ gap ++ text ++ rest) file (front ++ gap ++ text).length
      (content = .lineEnd) tokens extents) :
    Tiled (front ++ gap ++ text ++ rest) file front.length fresh
      (Span.token file ⟨content, front ++ gap, text⟩ :: tokens)
      (Span.extent ⟨content, front ++ gap, text⟩ :: extents) := by
  have stop_eq : (front ++ gap).length + text.length = (front ++ gap ++ text).length :=
    List.length_append.symm
  have next_eq : (front ++ gap ++ text ++ rest)[(front ++ gap).length]? = (text ++ rest).head? := by
    rw [List.append_assoc _ text, List.getElem?_append_right (Nat.le_refl _), Nat.sub_self,
      List.head?_eq_getElem?]
  have gap_eq : Extent.text (front ++ gap ++ text ++ rest) ⟨front.length, (front ++ gap).length⟩ =
      gap := by
    rw [List.append_assoc _ text, List.length_append, Extent.text_append]
  refine .token ?_ ?_ ?_ ?_ ?_ ?_ ?_
  · exact (List.prefix_append _ _).length_le
  · rwa [Span.extent, next_eq, gap_eq]
  · exact Nat.lt_add_of_pos_right (List.length_pos_iff.mpr nonempty)
  · rw [Span.extent, stop_eq]
    exact (List.prefix_append _ _).length_le
  · rwa [Span.extent, Extent.text_append]
  · rw [Span.extent, List.append_assoc _ text, List.take_left]
    rfl
  · rwa [Span.extent, stop_eq]

/-- A lexeme without a meaning leaves its line as it is. -/
theorem Context.lineHasTokens_after_of_none
    {context : Context}
    {lexeme : Lexeme}
    (meaningless : context.content? lexeme = none) :
    (context.after lexeme).lineHasTokens = context.lineHasTokens := by
  obtain ⟨_, _, same⟩ | ⟨_, empty, meant⟩ | ⟨_, _, content, _, meant⟩ :=
    context.content?_cases lexeme
  · rw [same]
  · rw [empty, eq_comm]
    simpa [meaningless] using meant
  · rw [meaningless] at meant
    cases meant

/-- The end of a line empties it, and every other content fills it. -/
theorem Context.lineHasTokens_after_of_some
    {context : Context}
    {lexeme : Lexeme}
    {content : Content}
    (meant : context.content? lexeme = some content) :
    (context.after lexeme).lineHasTokens = !decide (content = .lineEnd) := by
  obtain ⟨_, absent, _⟩ | ⟨_, empty, ending⟩ | ⟨_, filled, _, inner, same⟩ :=
    context.content?_cases lexeme
  · rw [meant] at absent
    cases absent
  · rw [meant] at ending
    split at ending
    · cases ending
      exact empty
    · cases ending
  · rw [meant] at same
    cases same
    simp [filled, inner]

/-- The spans of a text behind a part of the source that is skipped tile the source from the start
of that part on. -/
theorem tiled_spansFrom
    {source text : List Char}
    {pieces : List Lexeme.Piece}
    (cut : Lexeme.Cut [] text pieces)
    (file : String)
    (context : Context)
    {front gap : List Char}
    (source_eq : source = front ++ gap ++ text)
    (skipped : Skipped (!context.lineHasTokens) text.head? gap) :
    Tiled source file front.length (!context.lineHasTokens)
      ((spansFrom context (front ++ gap) pieces).map (Span.token file))
      ((spansFrom context (front ++ gap) pieces).map Span.extent) := by
  -- The gap grows by every lexeme without a meaning, until a token covers the lexeme behind it.
  induction cut generalizing context front gap with
  | nil =>
      rw [List.append_nil] at source_eq
      have within : front.length ≤ source.length := by
        rw [source_eq]
        exact (List.prefix_append _ _).length_le
      have gap_eq : Extent.text source ⟨front.length, source.length⟩ = gap := by
        rw [Extent.text, List.take_length, source_eq, List.drop_left]
      rw [spansFrom, Context.closing, ← source_eq]
      cases filled : context.lineHasTokens with
      | true =>
          rw [filled] at skipped
          exact .close within (gap_eq ▸ skipped)
      | false =>
          rw [filled] at skipped
          exact .done within (gap_eq ▸ skipped)
  | @cons piece text lexeme pieces spelled stops _ hypothesis =>
      rw [List.append_nil] at stops
      rw [spansFrom]
      cases meant : context.content? lexeme with
      | none =>
          have same := Context.lineHasTokens_after_of_none meant
          have longer : Skipped (!context.lineHasTokens) text.head? (gap ++ piece) := by
            refine Skipped.append ?_ (skipped_of_content? spelled stops meant)
            rwa [List.head?_append] at skipped
          rw [← same] at longer ⊢
          have tiled := hypothesis (context.after lexeme) (by simpa using source_eq) longer
          rwa [← List.append_assoc] at tiled
      | some content =>
          have filled := Context.lineHasTokens_after_of_some meant
          have split : source = front ++ gap ++ piece ++ text := by
            rw [source_eq, ← List.append_assoc]
          have fresh : Skipped (!(context.after lexeme).lineHasTokens) text.head? [] := .nil
          have tiled := hypothesis (context.after lexeme) (by rw [split, List.append_nil]) fresh
          rw [List.append_nil, filled, Bool.not_not] at tiled
          obtain ⟨c, tail, rfl, _⟩ := spelled.exists_scan stops
          subst split
          exact .cons skipped (List.cons_ne_nil c tail) (Context.spelled_of_content? spelled meant)
            tiled

/-- The tokens of a source tile it. -/
theorem tiled_of_ofSource
    {source file : String}
    {tokens : List Token}
    (read : ofSource source file = .ok tokens) :
    ∃ extents, Tiled source.toList file 0 true tokens extents := by
  obtain ⟨pieces, cut, rfl⟩ := (ofSource_eq_ok_iff ..).mp read
  have source_eq : source.toList = [] ++ [] ++ source.toList := rfl
  exact ⟨_, tiled_spansFrom cut file {} source_eq .nil⟩

/-- A comment, an empty line, a label, a mnemonic in small letters, a negative number and an escaped
character, on a last line that is not ended. -/
theorem tiled_of_every_gap :
    ∃ tokens extents, ofSource "; a\n\n.code\nl:\tjt -0x1F,\r'\\n'; b" "<input>" = .ok tokens ∧
      tokens.map (fun token => (token.location.line, token.location.column)) =
        [(3, 1), (3, 6), (4, 1), (4, 4), (4, 7), (4, 12), (4, 14), (4, 21)] ∧
      Tiled "; a\n\n.code\nl:\tjt -0x1F,\r'\\n'; b".toList "<input>" 0 true tokens extents := by
  have read : ofSource "; a\n\n.code\nl:\tjt -0x1F,\r'\\n'; b" "<input>" = .ok [
      ⟨.marker "code", { line := 3, column := 1 }⟩, ⟨.lineEnd, { line := 3, column := 6 }⟩,
      ⟨.label "l", { line := 4, column := 1 }⟩, ⟨.mnemonic "JT", { line := 4, column := 4 }⟩,
      ⟨.number (-31), { line := 4, column := 7 }⟩, ⟨.comma, { line := 4, column := 12 }⟩,
      ⟨.character "\n", { line := 4, column := 14 }⟩, ⟨.lineEnd, { line := 4, column := 21 }⟩] := by
    decide +kernel
  obtain ⟨extents, tiled⟩ := tiled_of_ofSource read
  exact ⟨_, extents, read, rfl, tiled⟩

end Token
end WordAsm
