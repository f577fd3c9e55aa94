import Mathlib.Data.Int.ModEq
import WordAsm.Proofs.Assembly.Stages
import WordAsm.Proofs.Section

/-!
# Operands that stand for one another

A number stands for its residue, a character for its code point and a constant for its value, so
these may take each other's place in a program. Every stage before encoding either looks at none of
them or reduces them, and the encoder is given the same numbers. A program whose operands are
exchanged is therefore assembled into exactly the same result.
-/

namespace WordAsm

namespace Token

/-! ## Exchanged tokens -/

/-- A token in place of another one in a section. A number may be replaced by one of the same
residue; in the code section also a character by its code point, and the name of a constant by a
number with the residue of its value. The new token may stand anywhere. All other tokens keep their
content and their line. -/
inductive Exchange (constants : List Constant) (within : Option String) : Token → Token → Prop
  | kept {first second : Token} :
      second.content = first.content →
      second.location.line = first.location.line →
      second.location.file = first.location.file →
      Exchange constants within first second
  | number {value other : Int} (here there : Location) :
      within = some "data" ∨ within = some "code" →
      value ≡ other [ZMOD 32768] →
      Exchange constants within ⟨.number value, here⟩ ⟨.number other, there⟩
  | character (c : Char) (here there : Location) :
      within = some "code" →
      Exchange constants within ⟨.character (String.ofList [c]), here⟩ ⟨.number c.toNat, there⟩
  | constant {constant : Constant} {value : Int} (here there : Location) :
      within = some "code" →
      constant ∈ constants →
      constant.value ≡ value [ZMOD 32768] →
      Exchange constants within ⟨.symbol constant.name, here⟩ ⟨.number value, there⟩

/-- Tokens exchanged one by one, each according to the section that it stands in. -/
inductive Exchanged (constants : List Constant) : Option String → List Token → List Token → Prop
  | nil (within : Option String) :
      Exchanged constants within [] []
  | cons {within : Option String} {first second : Token} {tokens others : List Token} :
      Exchange constants within first second →
      Exchanged constants (first.content.marker?.or within) tokens others →
      Exchanged constants within (first :: tokens) (second :: others)

variable {constants : List Constant} {within : Option String} {first second : Token}

/-- Only operands are exchanged. -/
theorem Exchange.content_eq
    (exchange : Exchange constants within first second)
    (plain : first.content.isOperand = false) :
    second.content = first.content := by
  cases exchange with
  | kept content => exact content
  | number | character | constant => cases plain

theorem Exchange.line_eq
    (exchange : Exchange constants within first second)
    (plain : first.content.isOperand = false) :
    second.location.line = first.location.line := by
  cases exchange with
  | kept _ line => exact line
  | number | character | constant => cases plain

theorem Exchange.label?_eq (exchange : Exchange constants within first second) :
    second.content.label? = first.content.label? := by
  cases exchange with
  | kept content => rw [content]
  | number | character | constant => rfl

theorem Exchange.isMarker_eq (exchange : Exchange constants within first second) :
    second.content.isMarker = first.content.isMarker := by
  cases exchange with
  | kept content => rw [content]
  | number | character | constant => rfl

theorem Exchange.eq_lineEnd_iff (exchange : Exchange constants within first second) :
    second.content = .lineEnd ↔ first.content = .lineEnd := by
  cases exchange with
  | kept content => rw [content]
  | number | character | constant => simp

end Token

/-! ## Sections -/

namespace Section

variable {constants : List Constant} {within : Option String} {tokens others : List Token}

/-- Sections of one name whose tokens are exchanged. -/
structure Exchanged
    (constants : List Constant)
    (first second : Section) : Prop where
  name : second.name = first.name
  tokens : List.Forall₂ (Token.Exchange constants (some first.name)) first.tokens second.tokens

theorem forall₂_trim_exchange
    (exchanged : List.Forall₂ (Token.Exchange constants within) tokens others) :
    List.Forall₂ (Token.Exchange constants within) (trim tokens) (trim others) := by
  cases exchanged with
  | nil => exact .nil
  | cons here later =>
      rw [trim, trim]
      simp only [here.eq_lineEnd_iff]
      split
      · exact later
      · exact .cons here later

/-- Exchanged tokens are divided at the same markers. -/
theorem forall₂_divide_exchanged
    (exchanged : Token.Exchanged constants within tokens others) :
    List.Forall₂ (Token.Exchange constants within) (divide tokens).1 (divide others).1 ∧
      List.Forall₂ (Exchanged constants) (divide tokens).2 (divide others).2 := by
  induction exchanged with
  | nil => exact ⟨.nil, .nil⟩
  | @cons within first second tokens others here _ hypothesis =>
      obtain ⟨loose, closed⟩ := hypothesis
      by_cases marked : ∃ name, first.content = .marker name
      · obtain ⟨name, content⟩ := marked
        have partner : second.content = .marker name := by
          rw [here.content_eq (by rw [content]; rfl), content]
        rw [divide_of_marker content, divide_of_marker partner]
        rw [content] at loose
        exact ⟨.nil, .cons ⟨rfl, forall₂_trim_exchange loose⟩ closed⟩
      · have plain : first.content.isMarker = false := by
          cases content : first.content with
          | marker name => exact absurd ⟨name, content⟩ marked
          | _ => rfl
        have partner : second.content.isMarker = false := by rw [here.isMarker_eq, plain]
        rw [(Token.Content.marker?_eq_none_iff _).mpr plain, Option.none_or] at loose
        rw [divide_of_plain plain, divide_of_plain partner]
        exact ⟨.cons here loose, closed⟩

end Section

/-- A program with exchanged tokens has the same layout. -/
theorem Layout.exists_of_exchanged
    {constants : List Constant}
    {tokens others : List Token}
    {layout : Layout}
    (divided : ofTokens tokens = .ok layout)
    (exchanged : Token.Exchanged constants none tokens others) :
    ∃ partner, ofTokens others = .ok partner ∧
      List.Forall₂ (Token.Exchange constants (some "data")) layout.data.tokens
        partner.data.tokens ∧
      List.Forall₂ (Token.Exchange constants (some "code")) layout.code.tokens
        partner.code.tokens := by
  obtain ⟨divided, dataName, codeName⟩ := (ofTokens_eq_ok_iff ..).mp divided
  obtain ⟨outside, sections⟩ := Section.forall₂_divide_exchanged exchanged
  rw [divided] at outside sections
  have nothing : (Section.divide others).1 = [] := List.forall₂_nil_left_iff.mp outside
  have related : ∃ data code, (Section.divide others).2 =
        (Layout.mk data code layout.dataFirst).inOrder ∧
      Section.Exchanged constants layout.data data ∧
      Section.Exchanged constants layout.code code := by
    generalize (Section.divide others).2 = partners at sections
    rw [inOrder] at sections
    split at sections
    · next dataFirst =>
        obtain _ | ⟨data, _ | ⟨code, _ | _⟩⟩ := sections
        exact ⟨_, _, by rw [inOrder, dataFirst]; rfl, data, code⟩
    · next codeFirst =>
        obtain _ | ⟨code, _ | ⟨data, _ | _⟩⟩ := sections
        exact ⟨_, _, by rw [inOrder]; simp [codeFirst], data, code⟩
  obtain ⟨data, code, sections_eq, dataExchanged, codeExchanged⟩ := related
  refine ⟨⟨data, code, layout.dataFirst⟩, ?_, ?_, ?_⟩
  · rw [ofTokens_eq_ok_iff, ← nothing, ← sections_eq]
    exact ⟨rfl, by rw [dataExchanged.name, dataName], by rw [codeExchanged.name, codeName]⟩
  · rw [← dataName]
    exact dataExchanged.tokens
  · rw [← codeName]
    exact codeExchanged.tokens

/-! ## Constants and labels -/

theorem Constant.Value.exchange
    {constants : List Constant}
    {type : ConstantType}
    {first second : Token}
    {value : Int}
    (valued : Value type first.content value)
    (exchange : Token.Exchange constants (some "data") first second) :
    Value type second.content value := by
  cases exchange with
  | kept content => rwa [content]
  | @number number other _ _ _ congruent =>
      cases valued
      have same : number % 32768 = other % 32768 := congruent
      rw [same]
      exact .number other
  | character _ _ _ code => exact absurd code (by decide)
  | constant _ _ code => exact absurd code (by decide)

/-- Exchanged declarations declare the same constants. -/
theorem Constant.Declarations.exchange
    {constants declared : List Constant}
    {tokens others : List Token}
    (declarations : Declarations tokens declared)
    (exchanged : List.Forall₂ (Token.Exchange constants (some "data")) tokens others) :
    Declarations others declared := by
  induction declarations generalizing others with
  | nil =>
      cases exchanged
      exact .nil
  | cons named typed valued ended _ hypothesis =>
      obtain _ | ⟨first, _ | ⟨second, _ | ⟨third, _ | ⟨fourth, later⟩⟩⟩⟩ := exchanged
      cases first with
      | kept content line file =>
          rw [← line, ← file]
          refine .cons (content.trans named) ?_ (valued.exchange third) ?_ (hypothesis later)
          · rw [second.content_eq (by rw [typed]; rfl), typed]
          · rw [fourth.content_eq (by rw [ended]; rfl), ended]
      | number | character => cases named
      | constant _ _ code => exact absurd code (by decide)

theorem Symbols.labelsOf_exchange
    {constants : List Constant}
    {within : Option String}
    {tokens others : List Token}
    (exchanged : List.Forall₂ (Token.Exchange constants within) tokens others) :
    labelsOf others = labelsOf tokens := by
  induction exchanged with
  | nil => rfl
  | cons here _ hypothesis =>
      rw [labelsOf, List.filterMap_cons, here.label?_eq, ← labelsOf, hypothesis, labelsOf, labelsOf,
        List.filterMap_cons]

/-! ## Operands -/

namespace Token

/-- Tokens of one content. Only operands may stand on different lines. -/
structure Alike (first second : Token) : Prop where
  content : second.content = first.content
  line : first.content.isOperand = false → second.location.line = first.location.line

/-- Exchanged operands resolve to the same content. -/
theorem Exchange.resolves
    {symbols : Symbols}
    {constants : List Constant}
    {first second : Token}
    {resolved : Content}
    (bounds : ∀ constant ∈ constants, 0 ≤ constant.value ∧ constant.value < 32768)
    (known : ∀ constant ∈ constants, symbols.constants.get? constant.name = some constant)
    (exchange : Exchange constants (some "code") first second)
    (resolves : Resolves symbols first.content resolved) :
    Resolves symbols second.content resolved := by
  cases exchange with
  | kept content => rwa [content]
  | @number value other _ _ _ congruent =>
      cases resolves with
      | number =>
          have same : value % 32768 = other % 32768 := congruent
          rw [same]
          exact .number other
      | other plain => cases plain
  | character c _ _ _ =>
      cases resolves with
      | character single small =>
          rw [String.toList_ofList, List.singleton_inj] at single
          subst single
          have reduced : Resolves symbols (.number c.toNat) (.number (c.toNat % 32768)) :=
            .number c.toNat
          rwa [Int.emod_eq_of_lt (Int.natCast_nonneg _) (by omega)] at reduced
      | other plain => cases plain
  | @constant constant value _ _ _ listed congruent =>
      cases resolves with
      | constant found =>
          rw [known constant listed] at found
          cases found
          have same : constant.value % 32768 = value % 32768 := congruent
          obtain ⟨low, high⟩ := bounds constant listed
          rw [Int.emod_eq_of_lt low high] at same
          rw [same]
          exact .number value
      | reference absent =>
          rw [known constant listed] at absent
          cases absent
      | other plain => cases plain

/-- Exchanged code sections are resolved to the same numbers. -/
theorem exists_resolveAll_exchange
    {symbols : Symbols}
    {constants : List Constant}
    {tokens others resolved : List Token}
    (bounds : ∀ constant ∈ constants, 0 ≤ constant.value ∧ constant.value < 32768)
    (known : ∀ constant ∈ constants, symbols.constants.get? constant.name = some constant)
    (exchanged : List.Forall₂ (Exchange constants (some "code")) tokens others)
    (resolves : resolveAll symbols tokens = .ok resolved) :
    ∃ partners, resolveAll symbols others = .ok partners ∧
      List.Forall₂ Alike resolved partners := by
  simp only [resolveAll_eq_ok_iff] at resolves ⊢
  induction exchanged generalizing resolved with
  | nil =>
      cases resolves
      exact ⟨[], .nil, .nil⟩
  | @cons first second _ _ here _ hypothesis =>
      obtain _ | ⟨⟨meant, place⟩, later⟩ := resolves
      rename_i result results
      obtain ⟨partners, partners_eq, alike⟩ := hypothesis later
      have partner := here.resolves bounds known meant
      refine ⟨⟨result.content, second.location⟩ :: partners, .cons ⟨partner, rfl⟩ partners_eq,
        .cons ⟨rfl, ?_⟩ alike⟩
      -- Only what is no operand after resolving is no operand before it either.
      intro plain
      rw [place]
      apply here.line_eq
      generalize first.content = content at meant
      generalize result.content = final at meant plain
      cases meant with
      | other => exact plain
      | _ => cases plain

end Token

/-! ## Encoding -/

namespace Encoder

theorem Move.alike
    {addresses : Table Int}
    {state next : State}
    {token other : Token}
    {completed : List Pending}
    (move : Move addresses state token next completed)
    (alike : token.Alike other) :
    Move addresses state other next completed := by
  cases move with
  | skip ignored => exact .skip (by rwa [alike.content])
  | beginPlain content found plain =>
      rw [← alike.line (by rw [content]; rfl)]
      exact .beginPlain (alike.content.trans content) found plain
  | begin content found operands =>
      rw [← alike.line (by rw [content]; rfl)]
      exact .begin (alike.content.trans content) found operands
  | operand denotes suits => exact .operand (by rwa [alike.content]) suits
  | comma content => exact .comma (alike.content.trans content)
  | close content => exact .close (alike.content.trans content)

/-- The encoder makes the same moves for tokens that are alike. -/
theorem Moves.alike
    {addresses : Table Int}
    {state next : State}
    {tokens others : List Token}
    {completed : List Pending}
    (moves : Moves addresses state tokens next completed)
    (alike : List.Forall₂ Token.Alike tokens others) :
    Moves addresses state others next completed := by
  induction moves generalizing others with
  | nil =>
      cases alike
      exact .nil _
  | cons move _ hypothesis =>
      obtain _ | ⟨here, later⟩ := alike
      exact .cons (move.alike here) (hypothesis later)

end Encoder

theorem Address.bindingsFrom_alike
    {tokens others : List Token}
    (alike : List.Forall₂ Token.Alike tokens others)
    (address : Nat)
    (before : Array Binding) :
    bindingsFrom address before others = bindingsFrom address before tokens := by
  induction alike generalizing address before with
  | nil => rfl
  | @cons first second _ _ here _ hypothesis =>
      rw [bindingsFrom, bindingsFrom, here.content]
      cases content : first.content with
      | label name =>
          dsimp only
          rw [here.line (by rw [content]; rfl), hypothesis]
      | _ => exact hypothesis _ _

/-- Tokens that are alike give the same code. -/
theorem Code.generate_alike
    {tokens others : List Token}
    {code : Code}
    (generated : generate tokens = .ok code)
    (alike : List.Forall₂ Token.Alike tokens others) :
    generate others = .ok code := by
  have addresses_eq : Address.table others = Address.table tokens := by
    rw [Address.table, Address.bindings, Address.bindingsFrom_alike alike]
    rfl
  obtain ⟨entries, encoded, finished⟩ := Outcome.bind_eq_ok_iff.mp generated
  obtain ⟨state, completed, last, moves, stops, rfl⟩ :=
    (Encoder.entriesOf_eq_ok_iff ..).mp encoded
  refine Outcome.bind_eq_ok_iff.mpr ⟨Encoder.place 0 (completed ++ last), ?_, ?_⟩
  · rw [addresses_eq]
    exact (Encoder.entriesOf_eq_ok_iff ..).mpr
      ⟨state, completed, last, moves.alike alike, stops, rfl⟩
  · rw [addresses_eq]
    exact finished

/-! ## Whole programs -/

namespace Assembly

/-- A program whose operands are exchanged is assembled with the same result: the same words, the
same labels and the same constants. -/
theorem ofTokens_exchanged
    {settings : Settings}
    {tokens others : List Token}
    {assembly : Assembly}
    (assembled : ofTokens settings tokens = .ok assembly)
    (exchanged : Token.Exchanged assembly.constants none tokens others) :
    ofTokens settings others = .ok assembly := by
  obtain ⟨stages, rfl⟩ := (ofTokens_eq_ok_iff ..).mp assembled
  change Token.Exchanged stages.constants none tokens others at exchanged
  obtain ⟨layout, divided, data, code⟩ := Layout.exists_of_exchanged stages.divided exchanged
  obtain ⟨declared, distinct⟩ := (Constant.compile_eq_ok_iff ..).mp stages.compiled
  have compiled : Constant.compile layout.data.tokens = .ok stages.constants :=
    (Constant.compile_eq_ok_iff ..).mpr ⟨declared.exchange data, distinct⟩
  have validated : Symbols.validate layout.code.tokens stages.constants settings.entryPoint =
      .ok stages.symbols := by
    rw [Symbols.validate_eq_ok_iff, Symbols.labelsOf_exchange code]
    exact (Symbols.validate_eq_ok_iff ..).mp stages.validated
  have known : ∀ constant ∈ stages.constants,
      stages.symbols.constants.get? constant.name = some constant := by
    rw [stages.symbols_eq]
    exact fun constant => Symbols.constantTable_get?_of_mem distinct
  obtain ⟨resolved, resolves, alike⟩ :=
    Token.exists_resolveAll_exchange declared.value_bounds known code stages.resolves
  have generated := Code.generate_alike stages.generated alike
  exact (ofTokens_eq_ok_iff ..).mpr ⟨⟨layout, stages.constants, stages.symbols, resolved,
    stages.code, divided, compiled, validated, resolves, generated⟩, rfl⟩

/-- A constant, its number, a character and a number beyond the value space, each written in another
way. -/
theorem ofTokens_exchanged_of_each_operand :
    ∃ tokens others assembly,
      Token.ofSource ".data\nk NUM 7\n.code\nmain: JT k, 'a'\nOUT 5" "<input>" = .ok tokens ∧
      Token.ofSource ".data\nk NUM -32761\n.code\nmain: JT 32775, 97\nOUT -32763" "<input>" =
        .ok others ∧
      assembly.words = [7, 7, 97, 19, 5, 0, 0] ∧
      ofTokens {} tokens = .ok assembly ∧ ofTokens {} others = .ok assembly := by
  let token (content : Token.Content) (line column : Int) : Token := ⟨content, { line, column }⟩
  let tokens : List Token := [
    token (.marker "data") 1 1, token .lineEnd 1 6,
    token (.symbol "k") 2 1, token (.typeWord "NUM") 2 3, token (.number 7) 2 7,
    token .lineEnd 2 8,
    token (.marker "code") 3 1, token .lineEnd 3 6,
    token (.label "main") 4 1, token (.mnemonic "JT") 4 7, token (.symbol "k") 4 10,
    token .comma 4 11, token (.character "a") 4 13, token .lineEnd 4 16,
    token (.mnemonic "OUT") 5 1, token (.number 5) 5 5, token .lineEnd 5 6]
  let assembly : Assembly := {
    words := [7, 7, 97, 19, 5, 0, 0]
    constants := [⟨"k", 7, 2, "<input>"⟩]
    labels := ⟨[("main", 0)]⟩
    entries := [⟨0, 4, "JT", [7, 7, 97]⟩, ⟨3, 5, "OUT", [19, 5]⟩] }
  have assembled : ofTokens {} tokens = .ok assembly := by decide +kernel
  have kept (within : Option String) (content : Token.Content) (line column other : Int) :
      Token.Exchange assembly.constants within (token content line column)
        (token content line other) :=
    .kept rfl rfl rfl
  have exchanged : Token.Exchanged assembly.constants none tokens [
      token (.marker "data") 1 1, token .lineEnd 1 6,
      token (.symbol "k") 2 1, token (.typeWord "NUM") 2 3, token (.number (-32761)) 2 7,
      token .lineEnd 2 13,
      token (.marker "code") 3 1, token .lineEnd 3 6,
      token (.label "main") 4 1, token (.mnemonic "JT") 4 7, token (.number 32775) 4 10,
      token .comma 4 15, token (.number 97) 4 17, token .lineEnd 4 19,
      token (.mnemonic "OUT") 5 1, token (.number (-32763)) 5 5, token .lineEnd 5 11] :=
    .cons (kept ..) <| .cons (kept ..) <| .cons (kept ..) <| .cons (kept ..) <|
    .cons (.number _ _ (.inl rfl) (by decide)) <| .cons (kept ..) <| .cons (kept ..) <|
    .cons (kept ..) <| .cons (kept ..) <| .cons (kept ..) <|
    .cons (@Token.Exchange.constant _ _ ⟨"k", 7, 2, "<input>"⟩ _ _ _ rfl List.mem_cons_self
      (by decide)) <|
    .cons (kept ..) <| .cons (.character 'a' _ _ rfl) <| .cons (kept ..) <| .cons (kept ..) <|
    .cons (.number _ _ (.inr rfl) (by decide)) <| .cons (kept ..) (.nil _)
  exact ⟨tokens, _, assembly, by decide +kernel, by decide +kernel, rfl, assembled,
    ofTokens_exchanged assembled exchanged⟩

end Assembly
end WordAsm
