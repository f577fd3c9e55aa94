import WordAsm.Proofs.Text.CarriageReturns
import WordAsm.Proofs.Token.Lines

/-!
# Reading a source with carriage returns

Where every carriage return stands in front of a line feed, carriage returns are blanks at the ends
of lines or end comments. A source that can be read with them can be read without them, as the same
tokens at the same places. Only the ends of lines stand one column further right with them.
-/

namespace WordAsm

open Text (ReturnsPaired withoutReturns withoutReturns_append withoutReturns_eq_self)

/-! ## Places -/

/-- Without carriage returns all stands at the same place, unless a line feed is next. -/
theorem Location.behind_of_returnsPaired
    {before after : List Char}
    (paired : ReturnsPaired (before ++ after))
    (file : String) :
    behind file before = behind file (withoutReturns before) ∨
      after.head? = some '\n' ∧
        behind file before = (behind file (withoutReturns before)).right 1 := by
  induction before using List.reverseRecOn generalizing after with
  | nil => exact .inl rfl
  | append_singleton before c hypothesis =>
      rw [List.append_assoc, List.singleton_append] at paired
      by_cases feed : c = '\n'
      · subst feed
        have feeds : (withoutReturns before).count '\n' = before.count '\n' :=
          List.count_filter rfl
        rw [withoutReturns_append]
        refine .inl ?_
        change _ = behind file (withoutReturns before ++ ['\n'])
        simp only [behind, List.count_append, feeds, List.rtakeWhile_concat]
        rfl
      · obtain same | ⟨next, _⟩ := hypothesis paired
        · have column (text : List Char) : behind file (text ++ [c]) = (behind file text).right 1 :=
            behind_append (by simpa using Ne.symm feed) file text
          by_cases carriage : c = '\r'
          · subst carriage
            refine .inr ⟨paired.of_append.1 rfl, ?_⟩
            rw [column, same, withoutReturns_append]
            exact congrArg (fun text => (behind file text).right 1) (List.append_nil _).symm
          · have kept : withoutReturns [c] = [c] :=
              withoutReturns_eq_self (by simpa using Ne.symm carriage)
            rw [withoutReturns_append, kept, column, column, same]
            exact .inl rfl
        · exact absurd (Option.some.inj next) feed

namespace Lexeme

/-! ## Lexemes -/

/-- Between quotes no carriage return stands in front of a line feed. -/
theorem Quoted.carriageReturn_not_mem
    {front rest : List Char}
    {c : Char}
    (quoted : Quoted front c)
    (paired : ReturnsPaired (front ++ '\'' :: rest)) :
    '\r' ∉ front := by
  intro listed
  cases quoted with
  | plain _ _ =>
      rw [List.mem_singleton] at listed
      cases paired.1 listed.symm
  | escape _ =>
      rw [List.mem_cons, List.mem_singleton] at listed
      obtain same | same := listed
      · cases same
      · cases paired.2.1 same.symm
  | hexadecimal _ _ all =>
      rw [List.mem_cons, List.mem_cons] at listed
      obtain same | same | listed := listed
      · cases same
      · cases same
      · cases isNameCharacter_of_isHexDigit (all '\r' listed)

/-- Carriage returns in front of line feeds stand in blanks and comments only. -/
theorem Spelled.carriageReturn_not_mem
    {front rest : List Char}
    {lexeme : Lexeme}
    (spelled : Spelled front lexeme)
    (paired : ReturnsPaired (front ++ rest)) :
    lexeme = .blank ∨ lexeme = .comment ∨ '\r' ∉ front := by
  by_cases listed : '\r' ∈ front
  · obtain ⟨blank, _⟩ | ⟨comment, _⟩ | rfl | ⟨body, _, rfl, quoted, listed⟩ :=
      spelled.cases_of_mem listed (by decide) (by decide)
    · exact .inl blank
    · exact .inr (.inl comment)
    · cases spelled
      cases List.mem_singleton.mp listed
    · rw [List.append_assoc] at paired
      exact absurd listed (quoted.carriageReturn_not_mem paired.2)
  · exact .inr (.inr listed)

/-- Where a lexeme stops, it stops without carriage returns too. -/
theorem StopsAt.withoutReturns
    {lexeme : Lexeme}
    {text : List Char}
    (stops : lexeme.StopsAt text.head?)
    (paired : ReturnsPaired text) :
    lexeme.StopsAt (Text.withoutReturns text).head? := by
  cases text with
  | nil => exact stops
  | cons c rest =>
      by_cases carriage : c = '\r'
      · subst carriage
        obtain ⟨tail, rfl⟩ := List.head?_eq_some_iff.mp (paired.1 rfl)
        change lexeme.StopsAt (some '\n')
        cases lexeme with
        | blank => cases stops '\r' rfl
        | comment => cases stops '\r' rfl
        | word =>
            rintro _ ⟨⟩
            decide
        | marker | number =>
            rintro _ ⟨⟩
            rfl
        | lineBreak | comma | label | character => trivial
      · rw [Text.withoutReturns, List.filter_cons_of_pos (by simpa using carriage)]
        exact stops

/-- Without carriage returns a lexeme is written as the same lexeme, unless it was blank and
nothing is left of it. -/
theorem Spelled.withoutReturns
    {front rest : List Char}
    {lexeme : Lexeme}
    (spelled : Spelled front lexeme)
    (stops : lexeme.StopsAt rest.head?)
    (paired : ReturnsPaired (front ++ rest)) :
    lexeme = .blank ∧ Text.withoutReturns front = [] ∨
      Text.withoutReturns front ≠ [] ∧ Spelled (Text.withoutReturns front) lexeme := by
  obtain rfl | rfl | plain := spelled.carriageReturn_not_mem paired
  · cases spelled with
    | blank _ all =>
        by_cases empty : Text.withoutReturns front = []
        · exact .inl ⟨rfl, empty⟩
        · exact .inr ⟨empty, .blank empty fun c listed => all c (List.mem_of_mem_filter listed)⟩
  · cases spelled with
    | @comment body all =>
        have kept : Text.withoutReturns (';' :: body) = ';' :: Text.withoutReturns body := rfl
        rw [kept]
        exact .inr ⟨List.cons_ne_nil _ _, .comment fun c listed =>
          all c (List.mem_of_mem_filter listed)⟩
  · rw [withoutReturns_eq_self plain]
    obtain ⟨c, tail, rfl, _⟩ := spelled.exists_scan stops
    exact .inr ⟨List.cons_ne_nil _ _, spelled⟩

/-- The lexemes of a text without its carriage returns. -/
def withoutReturns : List Piece → List Piece
  | [] => []
  | piece :: pieces =>
      if Text.withoutReturns piece.text = [] then withoutReturns pieces
      else ⟨piece.lexeme, Text.withoutReturns piece.text⟩ :: withoutReturns pieces

/-- A text that is cut into lexemes can be cut without its carriage returns. -/
theorem Cut.withoutReturns
    {text : List Char}
    {pieces : List Piece}
    (cut : Cut [] text pieces)
    (paired : ReturnsPaired text) :
    Cut [] (Text.withoutReturns text) (Lexeme.withoutReturns pieces) := by
  induction cut with
  | nil => exact .nil
  | cons spelled stops _ hypothesis =>
      rw [List.append_nil] at stops
      have later := hypothesis paired.of_append
      rw [withoutReturns_append, Lexeme.withoutReturns]
      obtain ⟨_, empty⟩ | ⟨nonempty, respelled⟩ := spelled.withoutReturns stops paired
      · rw [if_pos empty, empty, List.nil_append]
        exact later
      · rw [if_neg nonempty]
        refine .cons respelled ?_ later
        rw [List.append_nil]
        exact stops.withoutReturns paired.of_append

end Lexeme

namespace Token

open Lexeme (Cut Piece Spelled)

/-! ## Tokens -/

/-- The same token, except that the end of a line may stand one column further right. -/
inductive SameButLineEnd : Token → Token → Prop
  | same (token : Token) :
      SameButLineEnd token token
  | lineEnd (location : Location) :
      SameButLineEnd ⟨.lineEnd, location⟩ ⟨.lineEnd, location.right 1⟩

/-- The token of a lexeme stands at the same place without carriage returns, or it is the end of a
line. -/
theorem forall₂_sameButLineEnd_first
    {before front rest : List Char}
    {lexeme : Lexeme}
    (spelled : Spelled front lexeme)
    (stops : lexeme.StopsAt rest.head?)
    (paired : ReturnsPaired (before ++ (front ++ rest)))
    (file : String)
    (context : Context) :
    List.Forall₂ SameButLineEnd
      ((context.content? lexeme).toList.map fun content =>
        ⟨content, .behind file (withoutReturns before)⟩)
      ((context.content? lexeme).toList.map fun content => ⟨content, .behind file before⟩) := by
  obtain same | ⟨next, moved⟩ := Location.behind_of_returnsPaired paired file
  · rw [← same, List.forall₂_same]
    exact fun token _ => .same token
  · have lineBreak : lexeme = .lineBreak := by
      obtain ⟨c, tail, rfl, _⟩ := spelled.exists_scan stops
      obtain rfl : c = '\n' := Option.some.inj next
      obtain lineBreak | broken := spelled.eq_of_lineFeed_mem List.mem_cons_self
      · exact lineBreak
      · cases broken
    rw [lineBreak, Context.content?, moved]
    split
    · exact .cons (.lineEnd _) .nil
    · exact .nil

/-- Lexemes have the same tokens without carriage returns, and leave the same context. -/
theorem forall₂_sameButLineEnd
    {text : List Char}
    {pieces : List Piece}
    (cut : Cut [] text pieces)
    {before : List Char}
    (paired : ReturnsPaired (before ++ text))
    (file : String)
    (context : Context) :
    List.Forall₂ SameButLineEnd
        (tokensBehind file context (withoutReturns before) (Lexeme.withoutReturns pieces))
        (tokensBehind file context before pieces) ∧
      context.afterAll (Lexeme.withoutReturns pieces) = context.afterAll pieces := by
  induction cut generalizing context before with
  | nil => exact ⟨.nil, rfl⟩
  | @cons front text lexeme pieces spelled stops _ hypothesis =>
      rw [List.append_nil] at stops
      have first := forall₂_sameButLineEnd_first spelled stops paired file context
      obtain ⟨later, after_eq⟩ := @hypothesis (before ++ front) (by rwa [List.append_assoc])
        (context.after lexeme)
      rw [withoutReturns_append] at later
      rw [Lexeme.withoutReturns, tokensBehind]
      obtain ⟨rfl, empty⟩ | ⟨nonempty, _⟩ := spelled.withoutReturns stops paired.of_append
      · rw [empty, List.append_nil] at later
        rw [if_pos empty]
        exact ⟨later, after_eq⟩
      · rw [if_neg nonempty, tokensBehind]
        exact ⟨List.rel_append first later, after_eq⟩

/-- A source whose carriage returns all stand in front of line feeds can be read without them. -/
theorem exists_ofSource_withoutReturns
    {source file : String}
    {tokens : List Token}
    (paired : ReturnsPaired source.toList)
    (read : ofSource source file = .ok tokens) :
    ∃ others, ofSource (String.ofList (withoutReturns source.toList)) file = .ok others ∧
      List.Forall₂ SameButLineEnd others tokens := by
  obtain ⟨pieces, cut, rfl⟩ := (ofSource_eq_ok_iff ..).mp read
  have cutOther := cut.withoutReturns paired
  obtain ⟨related, context_eq⟩ := @forall₂_sameButLineEnd _ _ cut [] paired file {}
  have place : Location.behind file source.toList =
      .behind file (withoutReturns source.toList) := by
    obtain same | ⟨next, _⟩ :=
      @Location.behind_of_returnsPaired source.toList [] (by rwa [List.append_nil]) file
    · exact same
    · cases next
  refine ⟨(spansOf (Lexeme.withoutReturns pieces)).map (Span.token file),
    (ofSource_eq_ok_iff ..).mpr ⟨_, by rwa [String.toList_ofList], rfl⟩, ?_⟩
  rw [spansOf, spansOf, map_token_spansFrom cut, map_token_spansFrom cutOther, context_eq,
    List.nil_append, List.nil_append, place]
  refine List.rel_append related ?_
  rw [List.forall₂_same]
  exact fun token _ => .same token

/-- A source with carriage returns is read as the same tokens without them. -/
theorem exists_ofSource_of_withReturns
    {source file : String}
    {tokens : List Token}
    (plain : '\r' ∉ source.toList)
    (read : ofSource (Text.withReturns source) file = .ok tokens) :
    ∃ others, ofSource source file = .ok others ∧ List.Forall₂ SameButLineEnd others tokens := by
  have characters : (Text.withReturns source).toList = Text.returned source.toList :=
    String.toList_ofList
  have paired : ReturnsPaired (Text.withReturns source).toList := by
    rw [characters]
    exact Text.returnsPaired_returned plain
  have found := exists_ofSource_withoutReturns paired read
  rwa [characters, Text.withoutReturns_returned plain, String.ofList_toList] at found

end Token
end WordAsm
