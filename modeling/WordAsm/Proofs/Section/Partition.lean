import WordAsm.Proofs.Failure
import WordAsm.Proofs.Section

/-!
# How markers divide a program

Markers divide a program into blocks, one behind the other, and what stands before the first of
them. A block is a marker, the end of its line if that is the next token, and the tokens of the
section, so a program can be put together again from its blocks. A program has a layout exactly
when it is a data block and a code block in either order. Any other is refused for the first of
four reasons: it starts with something else, the data section is missing, the code section is
missing, or there are more sections than these.
-/

namespace WordAsm
namespace Section

/-- The tokens that a section is made from. The end of the marker's line is no part of the section
if it follows the marker at once; another end of a line behind it is. -/
inductive IsBlock : List Token → Section → Prop
  | ended {marker ending : Token} {name : String} {body : List Token} :
      marker.content = .marker name →
      ending.content = .lineEnd →
      (∀ token ∈ body, token.content.isMarker = false) →
      IsBlock (marker :: ending :: body) ⟨name, marker.location.line, body⟩
  | unended {marker : Token} {name : String} {body : List Token} :
      marker.content = .marker name →
      (∀ token ∈ body.head?, token.content ≠ .lineEnd) →
      (∀ token ∈ body, token.content.isMarker = false) →
      IsBlock (marker :: body) ⟨name, marker.location.line, body⟩

/-- A marker and the tokens up to the next one are the block of a section. -/
theorem isBlock_trim
    {marker : Token}
    {name : String}
    {body : List Token}
    (named : marker.content = .marker name)
    (plain : ∀ token ∈ body, token.content.isMarker = false) :
    IsBlock (marker :: body) ⟨name, marker.location.line, trim body⟩ := by
  cases body with
  | nil => exact .unended named (by simp) plain
  | cons token body =>
      rw [trim]
      split
      · next ending => exact .ended named ending (List.forall_mem_cons.mp plain).2
      · next inner => exact .unended named (by simpa using inner) plain

theorem IsBlock.exists_marker
    {block : List Token}
    {part : Section}
    (isBlock : IsBlock block part) :
    ∃ marker body, block = marker :: body ∧ marker.content = .marker part.name ∧
      ∀ token ∈ body, token.content.isMarker = false := by
  cases isBlock with
  | @ended marker ending _ body named ending_eq plain =>
      refine ⟨marker, ending :: body, rfl, named, List.forall_mem_cons.mpr ⟨?_, plain⟩⟩
      rw [ending_eq]
      rfl
  | @unended marker _ body named _ plain => exact ⟨marker, body, rfl, named, plain⟩

/-- Two blocks hold two markers, with the names of their sections. -/
theorem IsBlock.exists_markers
    {front back : List Token}
    {part other : Section}
    (isFront : IsBlock front part)
    (isBack : IsBlock back other) :
    ∃ first second body rest, front ++ back = first :: (body ++ second :: rest) ∧
      (∀ token ∈ body ++ rest, token.content.isMarker = false) ∧
      first.content = .marker part.name ∧ second.content = .marker other.name := by
  obtain ⟨first, body, rfl, named, plain⟩ := isFront.exists_marker
  obtain ⟨second, rest, rfl, namedOther, plainOther⟩ := isBack.exists_marker
  exact ⟨first, second, body, rest, rfl, List.forall_mem_append.mpr ⟨plain, plainOther⟩, named,
    namedOther⟩

/-- A block in front of a marker, or at the end, makes its section. -/
theorem IsBlock.divide_append
    {block tokens : List Token}
    {part : Section}
    (isBlock : IsBlock block part)
    (opened : (divide tokens).1 = []) :
    divide (block ++ tokens) = ([], part :: (divide tokens).2) := by
  cases isBlock with
  | @ended marker ending name body named ending_eq plain =>
      have unmarked : ∀ token ∈ ending :: body, token.content.isMarker = false := by
        rw [List.forall_mem_cons, ending_eq]
        exact ⟨rfl, plain⟩
      rw [List.cons_append, divide_section named unmarked opened, trim, if_pos ending_eq]
  | @unended marker name body named inner plain =>
      have kept : trim body = body := by
        cases body with
        | nil => rfl
        | cons token body => rw [trim, if_neg (inner token rfl)]
      rw [List.cons_append, divide_section named plain opened, kept]

/-- Blocks one behind the other make their sections. -/
theorem divide_flatten
    {blocks : List (List Token)}
    {sections : List Section}
    (areBlocks : List.Forall₂ IsBlock blocks sections) :
    divide blocks.flatten = ([], sections) := by
  induction areBlocks with
  | nil => rfl
  | cons isBlock _ hypothesis =>
      rw [List.flatten_cons, isBlock.divide_append (by rw [hypothesis]), hypothesis]

/-- Every program is what stands before its first marker and the blocks of its sections. -/
theorem exists_blocks (tokens : List Token) :
    (∀ token ∈ (divide tokens).1, token.content.isMarker = false) ∧
      ∃ blocks, tokens = (divide tokens).1 ++ blocks.flatten ∧
        List.Forall₂ IsBlock blocks (divide tokens).2 := by
  -- From the end on, what stands before the first marker is the body of a block not yet opened.
  induction tokens with
  | nil => exact ⟨by simp [divide], [], rfl, .nil⟩
  | cons token tokens hypothesis =>
      obtain ⟨plain, blocks, tokens_eq, areBlocks⟩ := hypothesis
      cases content : token.content with
      | marker name =>
          rw [divide_of_marker content]
          refine ⟨by simp, (token :: (divide tokens).1) :: blocks, ?_,
            .cons (isBlock_trim content plain) areBlocks⟩
          rw [List.flatten_cons, List.nil_append, List.cons_append, ← tokens_eq]
      | _ =>
          have ordinary : token.content.isMarker = false := by rw [content]; rfl
          rw [divide_of_plain ordinary]
          refine ⟨List.forall_mem_cons.mpr ⟨ordinary, plain⟩, blocks, ?_, areBlocks⟩
          rw [List.cons_append, ← tokens_eq]

/-- Dividing a program finds the blocks that it is made from, whatever their number and names. -/
theorem divide_eq_iff
    (tokens front : List Token)
    (sections : List Section) :
    divide tokens = (front, sections) ↔
      (∀ token ∈ front, token.content.isMarker = false) ∧
        ∃ blocks, tokens = front ++ blocks.flatten ∧ List.Forall₂ IsBlock blocks sections := by
  constructor
  · intro divided
    have blocks := exists_blocks tokens
    rwa [divided] at blocks
  · rintro ⟨plain, blocks, rfl, areBlocks⟩
    rw [Section.divide_append plain, divide_flatten areBlocks, List.append_nil]

end Section

namespace Layout

/-- The names of the markers of a program, in order. -/
def markers (tokens : List Token) : List String :=
  tokens.filterMap (·.content.marker?)

/-- A data section and a code section, in either order, and nothing else. -/
def IsComplete (tokens : List Token) : Prop :=
  ∃ first second body other,
    tokens = first :: (body ++ second :: other) ∧
    (∀ token ∈ body ++ other, token.content.isMarker = false) ∧
    (first.content = .marker "data" ∧ second.content = .marker "code" ∨
      first.content = .marker "code" ∧ second.content = .marker "data")

/-- Why a program has no layout. The reasons exclude each other; a number with more digits than the
limit, be it the first token or the number of sections, takes the place of the report. -/
inductive Refused (tokens : List Token) : Failure → Prop
  | outside {token : Token} {rest : List Token} :
      tokens = token :: rest →
      token.content.isMarker = false →
      (∀ value, token.content = .number value →
        (Nat.toDigits 10 value.natAbs).length ≤ 4300) →
      Refused tokens
        (.program { cause := .outsideSection token.content, location := some token.location })
  | outsideUnwritable {token : Token} {rest : List Token} {value : Int} :
      tokens = token :: rest →
      token.content = .number value →
      4300 < (Nat.toDigits 10 value.natAbs).length →
      Refused tokens .longNumber
  | noData :
      (∀ token ∈ tokens.head?, token.content.isMarker = true) →
      "data" ∉ markers tokens →
      Refused tokens (.program { cause := .missingSection "data" })
  | noCode :
      (∀ token ∈ tokens.head?, token.content.isMarker = true) →
      "data" ∈ markers tokens →
      "code" ∉ markers tokens →
      Refused tokens (.program { cause := .missingSection "code" })
  | count :
      (∀ token ∈ tokens.head?, token.content.isMarker = true) →
      "data" ∈ markers tokens →
      "code" ∈ markers tokens →
      (markers tokens).length ≠ 2 →
      (Nat.toDigits 10 (markers tokens).length).length ≤ 4300 →
      Refused tokens
        (.program { cause := .sectionCount (markers tokens).length (markers tokens) })
  | countUnwritable :
      (∀ token ∈ tokens.head?, token.content.isMarker = true) →
      "data" ∈ markers tokens →
      "code" ∈ markers tokens →
      4300 < (Nat.toDigits 10 (markers tokens).length).length →
      Refused tokens .longNumber

/-! ## Failures -/

/-- Sections make no layout if one of the two is missing, or if they are not two. -/
theorem ofSections_eq_error_iff
    (sections : List Section)
    (failure : Failure) :
    ofSections sections = .error failure ↔
      let names := sections.map (·.name)
      "data" ∉ names ∧ failure = .overall (.missingSection "data") ∨
        "data" ∈ names ∧ "code" ∉ names ∧ failure = .overall (.missingSection "code") ∨
        "data" ∈ names ∧ "code" ∈ names ∧ names.length ≠ 2 ∧
          failure = .overall (.sectionCount names.length names) := by
  unfold ofSections
  dsimp only
  by_cases hasData : "data" ∈ sections.map (·.name)
  · rw [if_neg (by simpa using hasData)]
    by_cases hasCode : "code" ∈ sections.map (·.name)
    · rw [if_neg (by simpa using hasCode)]
      split
      · next first second =>
          constructor
          · intro failed
            split at failed <;> cases failed
          · rintro (⟨absent, _⟩ | ⟨_, absent, _⟩ | ⟨_, _, other, _⟩)
            · exact absurd hasData absent
            · exact absurd hasCode absent
            · exact absurd rfl other
      · next other =>
          have notTwo : sections.length ≠ 2 := by
            intro two
            obtain ⟨first, second, rfl⟩ := List.length_eq_two.mp two
            exact other first second rfl
          simp [hasData, hasCode, notTwo, eq_comm]
    · rw [if_pos (by simpa using hasCode)]
      simp [hasData, hasCode, eq_comm]
  · rw [if_pos (by simpa using hasData)]
    simp [hasData, eq_comm]

/-- A program that starts with a marker has the layout of its sections. -/
theorem ofTokens_of_opened
    {tokens : List Token}
    (opened : ∀ token ∈ tokens.head?, token.content.isMarker = true) :
    ofTokens tokens = ofSections (Section.divide tokens).2 := by
  have leading := Section.head?_divide tokens
  rw [Option.filter_eq_none_iff.mpr (by simpa using opened), List.head?_eq_none_iff] at leading
  rw [ofTokens]
  split
  · next divided =>
      rw [divided] at leading
      cases leading
  · next divided => rw [divided]

/-- A program that starts with a marker fails for the names of its markers. -/
theorem ofTokens_eq_error_iff_of_opened
    {tokens : List Token}
    (opened : ∀ token ∈ tokens.head?, token.content.isMarker = true)
    (failure : Failure) :
    ofTokens tokens = .error failure ↔
      "data" ∉ markers tokens ∧ failure = .overall (.missingSection "data") ∨
        "data" ∈ markers tokens ∧ "code" ∉ markers tokens ∧
          failure = .overall (.missingSection "code") ∨
        "data" ∈ markers tokens ∧ "code" ∈ markers tokens ∧ (markers tokens).length ≠ 2 ∧
          failure = .overall (.sectionCount (markers tokens).length (markers tokens)) := by
  rw [ofTokens_of_opened opened, ofSections_eq_error_iff, Section.map_name_divide]
  rfl

theorem ofTokens_of_outside
    {token : Token}
    (plain : token.content.isMarker = false)
    (rest : List Token) :
    ofTokens (token :: rest) =
      .error (.located token.location (.outsideSection token.content)) := by
  rw [ofTokens, Section.divide_of_plain plain]

/-- A first token that is no marker is named in the report, unless it is too long a number. -/
theorem located_outside_of_short
    {token : Token}
    (short : ∀ value, token.content = .number value →
      (Nat.toDigits 10 value.natAbs).length ≤ 4300) :
    Failure.located token.location (.outsideSection token.content) =
      .program { cause := .outsideSection token.content, location := some token.location } := by
  apply Failure.ofFault_of_writable
  by_contra unwritable
  rw [Bool.not_eq_true] at unwritable
  obtain ⟨value, content, long⟩ := token.content.isWritable_eq_false_iff.mp unwritable
  exact Nat.not_le.mpr long (short value content)

theorem located_outside_of_long
    {token : Token}
    {value : Int}
    (content : token.content = .number value)
    (long : 4300 < (Nat.toDigits 10 value.natAbs).length) :
    Failure.located token.location (.outsideSection token.content) = .longNumber :=
  Failure.ofFault_of_unwritable
    (token.content.isWritable_eq_false_iff.mpr ⟨value, content, long⟩)

/-- The number of sections is part of the report, unless it is too long itself. -/
theorem overall_sectionCount_of_short
    {names : List String}
    (short : (Nat.toDigits 10 names.length).length ≤ 4300) :
    Failure.overall (.sectionCount names.length names) =
      .program { cause := .sectionCount names.length names } :=
  Failure.ofFault_of_writable ((Text.isWritable_iff _).mpr short)

theorem overall_sectionCount_of_long
    {names : List String}
    (long : 4300 < (Nat.toDigits 10 names.length).length) :
    Failure.overall (.sectionCount names.length names) = .longNumber := by
  apply Failure.ofFault_of_unwritable
  rw [← Bool.not_eq_true]
  exact fun writable => Nat.not_le.mpr long ((Text.isWritable_iff _).mp writable)

/-- A program has no layout exactly when there is a reason, and fails for that reason. -/
theorem ofTokens_eq_error_iff
    (tokens : List Token)
    (failure : Failure) :
    ofTokens tokens = .error failure ↔ Refused tokens failure := by
  constructor
  · intro failed
    by_cases opened : ∀ token ∈ tokens.head?, token.content.isMarker = true
    · obtain ⟨absent, rfl⟩ | ⟨hasData, absent, rfl⟩ | ⟨hasData, hasCode, other, rfl⟩ :=
        (ofTokens_eq_error_iff_of_opened opened failure).mp failed
      · exact .noData opened absent
      · exact .noCode opened hasData absent
      · obtain long | short := Nat.lt_or_ge 4300 (Nat.toDigits 10 (markers tokens).length).length
        · rw [overall_sectionCount_of_long long]
          exact .countUnwritable opened hasData hasCode long
        · rw [overall_sectionCount_of_short short]
          exact .count opened hasData hasCode other short
    · push Not at opened
      obtain ⟨token, first, plain⟩ := opened
      obtain ⟨rest, rfl⟩ := List.head?_eq_some_iff.mp first
      rw [ne_eq, Bool.not_eq_true] at plain
      rw [ofTokens_of_outside plain] at failed
      cases failed
      by_cases long : ∃ value, token.content = .number value ∧
          4300 < (Nat.toDigits 10 value.natAbs).length
      · obtain ⟨value, content, long⟩ := long
        rw [located_outside_of_long content long]
        exact .outsideUnwritable rfl content long
      · simp only [not_exists, not_and, Nat.not_lt] at long
        rw [located_outside_of_short long]
        exact .outside rfl plain long
  · intro refused
    cases refused with
    | outside tokens_eq plain short =>
        rw [tokens_eq, ofTokens_of_outside plain, located_outside_of_short short]
    | outsideUnwritable tokens_eq content long =>
        rw [tokens_eq, ofTokens_of_outside (by rw [content]; rfl),
          located_outside_of_long content long]
    | noData opened absent =>
        rw [ofTokens_eq_error_iff_of_opened opened]
        exact .inl ⟨absent, rfl⟩
    | noCode opened hasData absent =>
        rw [ofTokens_eq_error_iff_of_opened opened]
        exact .inr (.inl ⟨hasData, absent, rfl⟩)
    | count opened hasData hasCode other short =>
        rw [ofTokens_eq_error_iff_of_opened opened]
        exact .inr (.inr ⟨hasData, hasCode, other, (overall_sectionCount_of_short short).symm⟩)
    | countUnwritable opened hasData hasCode long =>
        rw [ofTokens_eq_error_iff_of_opened opened]
        refine .inr (.inr ⟨hasData, hasCode, fun two => ?_,
          (overall_sectionCount_of_long long).symm⟩)
        -- The number of two sections has one digit.
        rw [two] at long
        exact absurd long (by decide)

/-! ## Layouts -/

/-- A program has a layout exactly when it is made from the blocks of the two sections. -/
theorem ofTokens_eq_ok_iff_blocks
    (tokens : List Token)
    (layout : Layout) :
    ofTokens tokens = .ok layout ↔
      ∃ first second, tokens = first ++ second ∧
        List.Forall₂ Section.IsBlock [first, second] layout.inOrder ∧
        layout.data.name = "data" ∧ layout.code.name = "code" := by
  rw [ofTokens_eq_ok_iff, Section.divide_eq_iff]
  constructor
  · rintro ⟨⟨_, blocks, rfl, areBlocks⟩, named⟩
    have two : blocks.length = 2 := by
      rw [areBlocks.length_eq, inOrder]
      split <;> rfl
    obtain ⟨first, second, rfl⟩ := List.length_eq_two.mp two
    exact ⟨first, second, by simp, areBlocks, named⟩
  · rintro ⟨first, second, rfl, areBlocks, named⟩
    exact ⟨⟨by simp, [first, second], by simp, areBlocks⟩, named⟩

/-- The programs with a layout are those of a data section and a code section. -/
theorem exists_ofTokens_eq_ok_iff (tokens : List Token) :
    (∃ layout, ofTokens tokens = .ok layout) ↔ IsComplete tokens := by
  simp only [ofTokens_eq_ok_iff_blocks]
  constructor
  · rintro ⟨⟨data, code, dataFirst⟩, front, back, rfl, areBlocks, dataName, codeName⟩
    cases dataFirst with
    | true =>
        obtain _ | ⟨isData, _ | ⟨isCode, _⟩⟩ := areBlocks
        obtain ⟨first, second, body, other, tokens_eq, plain, markers⟩ :=
          isData.exists_markers isCode
        rw [dataName, codeName] at markers
        exact ⟨first, second, body, other, tokens_eq, plain, .inl markers⟩
    | false =>
        obtain _ | ⟨isCode, _ | ⟨isData, _⟩⟩ := areBlocks
        obtain ⟨first, second, body, other, tokens_eq, plain, markers⟩ :=
          isCode.exists_markers isData
        rw [dataName, codeName] at markers
        exact ⟨first, second, body, other, tokens_eq, plain, .inr markers⟩
  · rintro ⟨first, second, body, other, rfl, plain, markers⟩
    obtain ⟨plain, plainOther⟩ := List.forall_mem_append.mp plain
    obtain ⟨dataMarker, codeMarker⟩ | ⟨codeMarker, dataMarker⟩ := markers
    · exact ⟨⟨_, _, true⟩, first :: body, second :: other, rfl,
        .cons (Section.isBlock_trim dataMarker plain)
          (.cons (Section.isBlock_trim codeMarker plainOther) .nil), rfl, rfl⟩
    · exact ⟨⟨_, _, false⟩, first :: body, second :: other, rfl,
        .cons (Section.isBlock_trim codeMarker plain)
          (.cons (Section.isBlock_trim dataMarker plainOther) .nil), rfl, rfl⟩

/-- A program has a layout exactly when it is a data section and a code section in either order.
The sections of the layout, as they stand in the source, are then made from two blocks that are the
whole program. Every other program is refused, for the first reason there is. -/
theorem ofTokens_outcomes (tokens : List Token) :
    ((∃ layout, ofTokens tokens = .ok layout) ↔ IsComplete tokens) ∧
    (∀ layout, ofTokens tokens = .ok layout ↔
      ∃ first second, tokens = first ++ second ∧
        List.Forall₂ Section.IsBlock [first, second] layout.inOrder ∧
        layout.data.name = "data" ∧ layout.code.name = "code") ∧
    ∀ failure, ofTokens tokens = .error failure ↔ Refused tokens failure :=
  ⟨exists_ofTokens_eq_ok_iff tokens, ofTokens_eq_ok_iff_blocks tokens,
    ofTokens_eq_error_iff tokens⟩

end Layout
end WordAsm
