import WordAsm.Proofs.Correspondence.Basic
import WordAsm.Proofs.Text.Case
import WordAsm.Proofs.Token.Spans

/-!
# Letter case in a source

Mnemonics, type words and registers may be written in any case. A source in which only letters of
such tokens change their case is cut into lexemes at the same places, and is read as the same tokens
up to the case in which registers are written.
-/

namespace WordAsm

/-! ## Texts with the same capitals -/

theorem Location.behind_map_toUpper
    (file : String)
    (before : List Char) :
    behind file (before.map Char.toUpper) = behind file before := by
  have feed (c : Char) : (c.toUpper == '\n') = (c == '\n') := by
    rw [Bool.eq_iff_iff, beq_iff_eq, beq_iff_eq]
    exact Text.toUpper_eq_iff (by decide) c
  rw [behind, behind, List.count, List.countP_map, List.rtakeWhile, ← List.map_reverse,
    List.takeWhile_map, ← List.map_reverse, List.length_map]
  simp only [Function.comp_def, bne, feed]
  rfl

/-- The case of letters does not move what stands behind them. -/
theorem Location.behind_eq_of_capitals
    {first second : List Char}
    (same : second.map Char.toUpper = first.map Char.toUpper)
    (file : String) :
    behind file second = behind file first := by
  rw [← behind_map_toUpper, same, behind_map_toUpper]

namespace Cursor

/-- Cursors on the same line and column before texts with the same capitals. -/
structure SameCapitals (first second : Cursor) : Prop where
  rest : second.rest.map Char.toUpper = first.rest.map Char.toUpper
  line : second.line = first.line
  column : second.column = first.column

theorem SameCapitals.next
    {first second : Cursor}
    (same : first.SameCapitals second) :
    first.next.SameCapitals second.next := by
  obtain ⟨rest, line, column⟩ := same
  unfold Cursor.next
  cases standing : first.rest with
  | nil =>
      rw [standing, List.map_nil, List.map_eq_nil_iff] at rest
      rw [rest]
      exact ⟨by simp [rest, standing], line, column⟩
  | cons c text =>
      rw [standing, List.map_cons, List.map_eq_cons_iff] at rest
      obtain ⟨d, other, standingOther, letter, later⟩ := rest
      have feed : d = '\n' ↔ c = '\n' := by
        rw [← Text.toUpper_eq_iff (by decide) d, letter, Text.toUpper_eq_iff (by decide) c]
      rw [standingOther]
      simp only [feed]
      split
      · exact ⟨later, congrArg (· + 1) line, rfl⟩
      · exact ⟨later, line, congrArg (· + 1) column⟩

theorem SameCapitals.skip
    {first second : Cursor}
    (same : first.SameCapitals second)
    (count : Nat) :
    (first.skip count).SameCapitals (second.skip count) := by
  induction count generalizing first second with
  | zero => exact same
  | succ count hypothesis => exact hypothesis same.next

end Cursor

namespace Lexeme

theorem isBlank_eq_false_of_isAlpha
    {c : Char}
    (letter : c.isAlpha = true) :
    isBlank c = false := by
  rw [Bool.eq_false_iff]
  intro blank
  simp only [isBlank, Bool.or_eq_true, beq_iff_eq] at blank
  obtain (rfl | rfl) | rfl := blank <;> exact absurd letter (by decide)

/-- Whether a lexeme stops before a text does not depend on the case of letters. -/
theorem StopsAt.of_capitals
    {lexeme : Lexeme}
    {text other : List Char}
    (stops : lexeme.StopsAt text.head?)
    (same : other.map Char.toUpper = text.map Char.toUpper) :
    lexeme.StopsAt other.head? := by
  cases text with
  | nil =>
      rw [List.map_nil, List.map_eq_nil_iff] at same
      rwa [same]
  | cons c text =>
      rw [List.map_cons, List.map_eq_cons_iff] at same
      obtain ⟨d, other, rfl, letter, _⟩ := same
      obtain rfl | ⟨starts, startsOther⟩ := Text.eq_or_isAlpha_of_toUpper_eq letter
      · exact stops
      · have named := (isNameCharacter_iff c).mpr (.inl startsOther)
        cases lexeme with
        | blank =>
            rintro _ ⟨⟩
            exact isBlank_eq_false_of_isAlpha starts
        | comment =>
            obtain rfl := stops c rfl
            exact absurd startsOther (by decide)
        | word => exact absurd named (Bool.eq_false_iff.mp (stops c rfl).1)
        | marker | number => exact absurd named (Bool.eq_false_iff.mp (stops c rfl))
        | lineBreak | comma | label | character => trivial

end Lexeme

/-- A lexeme that cannot be read is reported alike whatever the case of letters. -/
theorem Lexeme.Error.alike_failure
    {first second : Cursor}
    (same : first.SameCapitals second)
    (file : String)
    (error : Error) :
    (error.failure file first).Alike (error.failure file second) := by
  cases error with
  | longNumeral digits => exact ⟨rfl, rfl⟩
  | malformed cause offset =>
      have line := (same.skip offset).line
      unfold failure Failure.ofFault
      dsimp only
      split
      · exact ⟨rfl, congrArg some line⟩
      · exact ⟨rfl, rfl⟩

namespace Token

/-! ## Tokens that may be written in any case -/

/-- The text of a content that may be written in any case. -/
def Content.caseless? : Content → Option String
  | .mnemonic name | .typeWord name | .register name => some name
  | _ => none

/-- Whether a character of a source belongs to a token that may be written in any case. -/
def Covers
    (source : List Char)
    (file : String)
    (token : Token)
    (position : Nat) : Prop :=
  ∃ before name, before <+: source ∧ token.location = .behind file before ∧
    token.content.caseless? = some name ∧
    before.length ≤ position ∧ position < before.length + name.length

/-- Sources that differ in the case of letters, and only inside tokens that may be written in any
case. -/
structure Recased (file source other : String) : Prop where
  capitals : other.toList.map Char.toUpper = source.toList.map Char.toUpper
  covered : ∀ position, other.toList[position]? ≠ source.toList[position]? →
    ∃ token ∈ (read source file).tokens, token.Covers source.toList file position

/-- Contents that are equal, or the same register in another case. -/
inductive Content.SameUpToCase : Content → Content → Prop
  | refl (content : Content) :
      SameUpToCase content content
  | register {name other : String} :
      other.toList.map Char.toUpper = name.toList.map Char.toUpper →
      SameUpToCase (.register name) (.register other)

/-- Tokens at the same place that are equal up to the case of a register. -/
structure SameUpToCase (first second : Token) : Prop where
  content : first.content.SameUpToCase second.content
  location : second.location = first.location

/-- Only words may be written in any case. -/
theorem Context.exists_word_of_caseless
    {context : Context}
    {lexeme : Lexeme}
    {content : Content}
    {name : String}
    (meant : context.content? lexeme = some content)
    (caseless : content.caseless? = some name) :
    ∃ word, lexeme = .word word ∧ name.length = word.length := by
  cases lexeme with
  | word word =>
      refine ⟨word, rfl, ?_⟩
      cases meant
      unfold wordContent at caseless
      dsimp only at caseless
      split_ifs at caseless <;> cases caseless
      · rw [String.length_ofList, List.length_map, String.length_toList]
      · rw [String.length_ofList, List.length_map, String.length_toList]
      · rfl
  | blank | comment => cases meant
  | lineBreak =>
      rw [content?] at meant
      split at meant
      · cases meant
        cases caseless
      · cases meant
  | comma | marker | label | number | character =>
      cases meant
      cases caseless

/-- A word that may be written in any case means the same in another case. -/
theorem Context.sameUpToCase_wordContent
    {context : Context}
    {name other : String}
    (caseless : (context.wordContent name).caseless?.isSome = true)
    (same : other.toList.map Char.toUpper = name.toList.map Char.toUpper) :
    (context.wordContent name).SameUpToCase (context.wordContent other) := by
  have register : Machine.isRegisterName other = Machine.isRegisterName name := by
    rw [Machine.isRegisterName, Machine.isRegisterName,
      Machine.registerAddress?_eq_of_toUpper_eq same]
  unfold wordContent at caseless ⊢
  dsimp only at caseless ⊢
  rw [same, register]
  split_ifs at caseless ⊢
  · exact .refl _
  · exact .refl _
  · exact .register same
  · cases caseless

/-! ## Lexemes in another case -/

/-- Lexemes of which words that may be written in any case differ in case. -/
inductive Respelled : Context → List Lexeme.Piece → List Lexeme.Piece → Prop
  | nil {context : Context} :
      Respelled context [] []
  | same {context : Context} {piece : Lexeme.Piece} {pieces others : List Lexeme.Piece} :
      Respelled (context.after piece.lexeme) pieces others →
      Respelled context (piece :: pieces) (piece :: others)
  | word {context : Context} {name other : String} {pieces others : List Lexeme.Piece} :
      (context.wordContent name).caseless?.isSome = true →
      other.toList.map Char.toUpper = name.toList.map Char.toUpper →
      Respelled (context.after (.word name)) pieces others →
      Respelled context (⟨.word name, name.toList⟩ :: pieces) (⟨.word other, other.toList⟩ :: others)

theorem Respelled.afterAll_eq
    {context : Context}
    {pieces others : List Lexeme.Piece}
    (respelled : Respelled context pieces others) :
    context.afterAll others = context.afterAll pieces := by
  induction respelled with
  | nil => rfl
  | same _ hypothesis => exact hypothesis
  | word _ _ _ hypothesis => exact hypothesis

/-- The tokens of words in another case differ in the case of registers only. -/
theorem Respelled.tokensBehind
    {context : Context}
    {pieces others : List Lexeme.Piece}
    (respelled : Respelled context pieces others)
    (file : String)
    {before another : List Char}
    (same : another.map Char.toUpper = before.map Char.toUpper) :
    List.Forall₂ SameUpToCase (Token.tokensBehind file context before pieces)
      (Token.tokensBehind file context another others) := by
  have place := Location.behind_eq_of_capitals same file
  induction respelled generalizing before another with
  | nil => exact .nil
  | @same context piece _ _ _ hypothesis =>
      have later : (another ++ piece.text).map Char.toUpper =
          (before ++ piece.text).map Char.toUpper := by
        rw [List.map_append, List.map_append, same]
      have rest := hypothesis later (Location.behind_eq_of_capitals later file)
      rw [Token.tokensBehind, Token.tokensBehind, place]
      cases context.content? piece.lexeme with
      | none => exact rest
      | some content => exact .cons ⟨.refl content, rfl⟩ rest
  | @word context name other _ _ caseless letters _ hypothesis =>
      have later : (another ++ other.toList).map Char.toUpper =
          (before ++ name.toList).map Char.toUpper := by
        rw [List.map_append, List.map_append, same, letters]
      have rest := hypothesis later (Location.behind_eq_of_capitals later file)
      exact .cons ⟨Context.sameUpToCase_wordContent caseless letters, place⟩ rest

/-- Where the token of a lexeme starts in its source, and how far it may reach. -/
theorem exists_of_mem_tokensBehind
    {text rest : List Char}
    {pieces : List Lexeme.Piece}
    (cut : Lexeme.Cut rest text pieces)
    {file : String}
    {context : Context}
    {before : List Char}
    {token : Token}
    {name : String}
    (listed : token ∈ tokensBehind file context before pieces)
    (caseless : token.content.caseless? = some name) :
    ∃ earlier later, text = earlier ++ later ∧
      token.location = .behind file (before ++ earlier) ∧ name.length ≤ later.length := by
  induction cut generalizing context before with
  | nil => cases listed
  | @cons front text lexeme pieces spelled _ _ hypothesis =>
      rw [tokensBehind, List.mem_append, List.mem_map] at listed
      obtain ⟨content, meant, rfl⟩ | later := listed
      · obtain ⟨word, rfl, length_eq⟩ :=
          Context.exists_word_of_caseless (Option.mem_toList.mp meant) caseless
        cases spelled
        refine ⟨[], word.toList ++ text, rfl, by rw [List.append_nil], ?_⟩
        rw [List.length_append, String.length_toList]
        omega
      · obtain ⟨earlier, rest, rfl, location_eq, bound⟩ := hypothesis later
        exact ⟨front ++ earlier, rest, (List.append_assoc ..).symm,
          by rw [location_eq, List.append_assoc], bound⟩

/-- A token of a lexeme covers no character before the lexeme. -/
theorem Covers.length_le
    {text rest : List Char}
    {pieces : List Lexeme.Piece}
    (cut : Lexeme.Cut rest text pieces)
    {file : String}
    {context : Context}
    {before : List Char}
    {token : Token}
    {position : Nat}
    (listed : token ∈ tokensBehind file context before pieces)
    (covers : token.Covers (before ++ text ++ rest) file position) :
    before.length ≤ position ∧ position < before.length + text.length := by
  obtain ⟨start, name, leading, location_eq, caseless, lower, upper⟩ := covers
  obtain ⟨earlier, later, rfl, place, bound⟩ := exists_of_mem_tokensBehind cut listed caseless
  have within : before ++ earlier <+: before ++ (earlier ++ later) ++ rest := by
    rw [List.append_assoc, List.append_assoc, ← List.append_assoc]
    exact List.prefix_append ..
  obtain rfl := Location.eq_of_behind_eq leading within (location_eq.symm.trans place)
  rw [List.length_append] at *
  omega

/-- A character that is covered belongs to the first lexeme and its token, or to later ones. -/
theorem Covers.first_or_later
    {front text rest : List Char}
    {lexeme : Lexeme}
    {pieces : List Lexeme.Piece}
    (spelled : Lexeme.Spelled front lexeme)
    (stops : lexeme.StopsAt (text ++ rest).head?)
    (cut : Lexeme.Cut rest text pieces)
    {file : String}
    {context : Context}
    {before : List Char}
    {token : Token}
    {position : Nat}
    (listed : token ∈ tokensBehind file context before (⟨lexeme, front⟩ :: pieces))
    (covers : token.Covers (before ++ (front ++ text) ++ rest) file position) :
    (position < before.length + front.length ∧
        ∃ content name, context.content? lexeme = some content ∧ content.caseless? = some name) ∨
      (before.length + front.length ≤ position ∧
        token ∈ tokensBehind file (context.after lexeme) (before ++ front) pieces) := by
  have single : Lexeme.Cut (text ++ rest) front [⟨lexeme, front⟩] := by
    have cut : Lexeme.Cut (text ++ rest) (front ++ []) [⟨lexeme, front⟩] :=
      .cons spelled stops .nil
    rwa [List.append_nil] at cut
  have parts := tokensBehind_append single file context before pieces
  rw [List.singleton_append] at parts
  rw [parts, List.mem_append] at listed
  obtain here | later := listed
  · have bounds := Covers.length_le single here (by simpa using covers)
    rw [tokensBehind, tokensBehind, List.append_nil, List.mem_map] at here
    obtain ⟨content, meant, rfl⟩ := here
    obtain ⟨_, name, _, _, caseless, _⟩ := covers
    exact .inl ⟨bounds.2, content, name, Option.mem_toList.mp meant, caseless⟩
  · have bounds := Covers.length_le cut later (by simpa using covers)
    rw [List.length_append] at bounds
    exact .inr ⟨bounds.1, later⟩

/-- A lexeme that is not written as before is a word in another case. -/
theorem exists_respelled_first
    {front first : List Char}
    {lexeme : Lexeme}
    {context : Context}
    (spelled : Lexeme.Spelled front lexeme)
    (same : first.map Char.toUpper = front.map Char.toUpper)
    (caseless : first ≠ front →
      ∃ content name, context.content? lexeme = some content ∧ content.caseless? = some name) :
    ∃ other, Lexeme.Spelled first other ∧
      (∀ next, lexeme.StopsAt next → other.StopsAt next) ∧
      ∀ pieces others, Respelled (context.after lexeme) pieces others →
        Respelled context (⟨lexeme, front⟩ :: pieces) (⟨other, first⟩ :: others) := by
  by_cases unchanged : first = front
  · subst unchanged
    exact ⟨lexeme, spelled, fun _ stops => stops, fun _ _ later => .same later⟩
  · obtain ⟨content, name, meant, anyCase⟩ := caseless unchanged
    obtain ⟨word, rfl, _⟩ := Context.exists_word_of_caseless meant anyCase
    cases meant
    cases spelled with
    | word named =>
        have first_eq : (String.ofList first).toList = first := String.toList_ofList
        rw [← first_eq] at same ⊢
        have namedOther := (Lexeme.isName_eq_of_toUpper_eq same).trans named
        refine ⟨.word (String.ofList first), .word namedOther, fun _ stops => stops, ?_⟩
        intro pieces others later
        exact .word (by rw [anyCase]; rfl) same later

/-! ## Changed characters -/

theorem lt_length_of_getElem?_ne
    {first second : List Char}
    {position : Nat}
    (length_eq : first.length = second.length)
    (changed : first[position]? ≠ second[position]?) :
    position < second.length := by
  by_contra beyond
  rw [List.getElem?_eq_none (by omega), List.getElem?_eq_none (by omega)] at changed
  exact changed rfl

/-- A character that is changed in a front is changed in the whole. -/
theorem getElem?_append_ne_of_front
    {first front : List Char}
    (length_eq : first.length = front.length)
    {position : Nat}
    (changed : first[position]? ≠ front[position]?)
    (second back : List Char) :
    (first ++ second)[position]? ≠ (front ++ back)[position]? := by
  have bound := lt_length_of_getElem?_ne length_eq changed
  rwa [List.getElem?_append_left (by omega), List.getElem?_append_left bound]

/-- A character that is changed behind a front is changed in the whole. -/
theorem getElem?_append_ne_of_back
    {first front second back : List Char}
    (length_eq : first.length = front.length)
    {position : Nat}
    (changed : second[position]? ≠ back[position]?) :
    (first ++ second)[front.length + position]? ≠ (front ++ back)[front.length + position]? := by
  rwa [List.getElem?_append_right (by omega), List.getElem?_append_right (by omega), length_eq,
    Nat.add_sub_cancel_left]

/-- Every character that is changed in a text is covered by a token of the lexemes of the text. -/
def ChangesCovered
    (file : String)
    (context : Context)
    (before rest text other : List Char)
    (pieces : List Lexeme.Piece) : Prop :=
  ∀ position, other[position]? ≠ text[position]? →
    ∃ token ∈ tokensBehind file context before pieces,
      token.Covers (before ++ text ++ rest) file (before.length + position)

section

variable {front text rest : List Char} {lexeme : Lexeme} {pieces : List Lexeme.Piece}
variable (spelled : Lexeme.Spelled front lexeme) (stops : lexeme.StopsAt (text ++ rest).head?)
  (cut : Lexeme.Cut rest text pieces)

include spelled stops cut

/-- If the first lexeme is changed, it may be written in any case. -/
theorem ChangesCovered.first
    {file : String}
    {context : Context}
    {before first second : List Char}
    (covered : ChangesCovered file context before rest (front ++ text) (first ++ second)
      (⟨lexeme, front⟩ :: pieces))
    (length_eq : first.length = front.length)
    (different : first ≠ front) :
    ∃ content name, context.content? lexeme = some content ∧ content.caseless? = some name := by
  obtain ⟨position, changed⟩ := not_forall.mp fun equal => different (List.ext_getElem? equal)
  have bound := lt_length_of_getElem?_ne length_eq changed
  obtain ⟨token, listed, covers⟩ :=
    covered position (getElem?_append_ne_of_front length_eq changed second text)
  obtain ⟨_, caseless⟩ | ⟨beyond, _⟩ := covers.first_or_later spelled stops cut listed
  · exact caseless
  · omega

/-- What is changed behind the first lexeme is covered by later tokens. -/
theorem ChangesCovered.later
    {file : String}
    {context : Context}
    {before first second : List Char}
    (covered : ChangesCovered file context before rest (front ++ text) (first ++ second)
      (⟨lexeme, front⟩ :: pieces))
    (length_eq : first.length = front.length) :
    ChangesCovered file (context.after lexeme) (before ++ front) rest text second pieces := by
  intro position changed
  obtain ⟨token, listed, covers⟩ :=
    covered (front.length + position) (getElem?_append_ne_of_back length_eq changed)
  rw [← Nat.add_assoc] at covers
  obtain ⟨bound, _⟩ | ⟨_, later⟩ := covers.first_or_later spelled stops cut listed
  · omega
  · exact ⟨token, later, by simpa using covers⟩

end

/-- A text in which letters of tokens that may be written in any case change their case is cut at
the same places. -/
theorem exists_respelled
    {text rest : List Char}
    {pieces : List Lexeme.Piece}
    (cut : Lexeme.Cut rest text pieces)
    {file : String}
    {context : Context}
    {before other : List Char}
    (same : other.map Char.toUpper = text.map Char.toUpper)
    (covered : ChangesCovered file context before rest text other pieces) :
    ∃ others, Respelled context pieces others ∧ Lexeme.Cut rest other others := by
  induction cut generalizing context before other with
  | nil =>
      rw [List.map_nil, List.map_eq_nil_iff] at same
      subst same
      exact ⟨[], .nil, .nil⟩
  | cons spelled stops cut hypothesis =>
      rw [List.map_append, List.map_eq_append_iff] at same
      obtain ⟨first, second, rfl, sameFirst, sameSecond⟩ := same
      have length_eq := by simpa using congrArg List.length sameFirst
      obtain ⟨another, spelledOther, stopsOther, respelled⟩ :=
        exists_respelled_first spelled sameFirst (covered.first spelled stops cut length_eq)
      obtain ⟨others, respelledLater, cutOther⟩ :=
        hypothesis sameSecond (covered.later spelled stops cut length_eq)
      refine ⟨⟨another, first⟩ :: others, respelled _ _ respelledLater,
        .cons spelledOther (stopsOther _ (stops.of_capitals ?_)) cutOther⟩
      rw [List.map_append, List.map_append, sameSecond]

/-! ## Sources in another case -/

/-- A token that covers a character is the token of a lexeme: the end of an open last line is none
that may be written in any case. -/
theorem mem_tokensBehind_of_covers
    {source file : String}
    {text rest : List Char}
    {pieces : List Lexeme.Piece}
    (standing : source.toList = text ++ rest)
    (cut : Lexeme.Cut rest text pieces)
    (ended : rest = [] ∨ ∃ c tail error, rest = c :: tail ∧ Lexeme.scan c tail = .error error)
    {token : Token}
    {position : Nat}
    (listed : token ∈ (read source file).tokens)
    (covers : token.Covers source.toList file position) :
    token ∈ tokensBehind file {} [] pieces := by
  obtain rfl | ⟨c, tail, error, rfl, failed⟩ := ended
  · rw [List.append_nil] at standing
    subst standing
    rw [read_of_cut_nil cut, spansOf, map_token_spansFrom cut, List.mem_append, List.mem_map]
      at listed
    obtain here | ⟨content, closing, rfl⟩ := listed
    · exact here
    · obtain ⟨_, name, _, _, caseless, _⟩ := covers
      rw [Context.closing] at closing
      split at closing
      · rw [List.mem_singleton.mp closing] at caseless
        cases caseless
      · cases closing
  · rwa [read_of_cut_error cut standing failed] at listed

/-- Both sources are cut at the same places, up to the same rest. -/
theorem Recased.exists_cut
    {file source other : String}
    (recased : Recased file source other) :
    ∃ text first pieces others rest, source.toList = text ++ rest ∧ other.toList = first ++ rest ∧
      Lexeme.Cut rest text pieces ∧ Lexeme.Cut rest first others ∧ Respelled {} pieces others ∧
      (rest = [] ∨ ∃ c tail error, rest = c :: tail ∧ Lexeme.scan c tail = .error error) := by
  obtain ⟨text, pieces, rest, standing, cut, ended⟩ := Lexeme.exists_cut source.toList
  have capitals := recased.capitals
  rw [standing, List.map_append, List.map_eq_append_iff] at capitals
  obtain ⟨first, second, standingOther, sameFirst, sameSecond⟩ := capitals
  have length_eq : first.length = text.length := by
    simpa using congrArg List.length sameFirst
  have covered (position : Nat)
      (changed : (first ++ second)[position]? ≠ (text ++ rest)[position]?) :
      ∃ token ∈ tokensBehind file {} [] pieces,
        token.Covers ([] ++ text ++ rest) file position := by
    rw [← standing, ← standingOther] at changed
    obtain ⟨token, listed, covers⟩ := recased.covered position changed
    refine ⟨token, mem_tokensBehind_of_covers standing cut ended listed covers, ?_⟩
    rwa [List.nil_append, ← standing]
  have second_eq : second = rest := by
    apply List.ext_getElem?
    intro position
    by_contra changed
    obtain ⟨token, listed, covers⟩ :=
      covered (text.length + position) (getElem?_append_ne_of_back length_eq changed)
    have bounds := Covers.length_le cut listed covers
    rw [List.length_nil] at bounds
    omega
  subst second_eq
  have within : ChangesCovered file {} [] second text first pieces := by
    intro position changed
    rw [List.length_nil, Nat.zero_add]
    exact covered position (getElem?_append_ne_of_front length_eq changed second second)
  obtain ⟨others, respelled, cutOther⟩ := exists_respelled cut sameFirst within
  exact ⟨text, first, pieces, others, second, standing, standingOther, cut, cutOther, respelled,
    ended⟩

/-- A source in another case is read as the same tokens up to the case of registers, to its end or
to the same failure. -/
theorem Recased.alike_read
    {file source other : String}
    (recased : Recased file source other) :
    List.Forall₂ SameUpToCase (read source file).tokens (read other file).tokens ∧
      Option.Rel Failure.Alike (read source file).failure (read other file).failure := by
  obtain ⟨text, first, pieces, others, rest, standing, standingOther, cut, cutOther, respelled,
    ended⟩ := recased.exists_cut
  have tokens := respelled.tokensBehind file (show ([] : List Char).map Char.toUpper = _ from rfl)
  obtain rfl | ⟨c, tail, error, rfl, failed⟩ := ended
  · rw [List.append_nil] at standing standingOther
    subst standing standingOther
    have place := Location.behind_eq_of_capitals recased.capitals file
    rw [read_of_cut_nil cut, read_of_cut_nil cutOther, spansOf, spansOf, map_token_spansFrom cut,
      map_token_spansFrom cutOther, respelled.afterAll_eq]
    refine ⟨List.rel_append tokens ?_, .none⟩
    rw [List.nil_append, List.nil_append, place, List.forall₂_map_left_iff,
      List.forall₂_map_right_iff, List.forall₂_same]
    exact fun content _ => ⟨.refl content, rfl⟩
  · have start : (Cursor.start source.toList 1).SameCapitals (Cursor.start other.toList 1) :=
      ⟨recased.capitals, rfl, rfl⟩
    have length_eq : first.length = text.length := by
      have capitals := recased.capitals
      rw [standing, standingOther] at capitals
      simpa using congrArg List.length capitals
    rw [read_of_cut_error cut standing failed, read_of_cut_error cutOther standingOther failed,
      length_eq]
    exact ⟨tokens, .some (Lexeme.Error.alike_failure (start.skip text.length) file error)⟩

end Token
end WordAsm
