import WordAsm.Section

/-!
# Where sections begin and end

Tokens without a marker stay together, and a marker opens a section that holds the tokens up to
the next one. A complete layout is a data section and a code section in either order, and tokens
behind it go to its last section.
-/

namespace WordAsm

/-- The name of a section marker. -/
def Token.Content.marker? : Token.Content → Option String
  | .marker name => some name
  | _ => none

theorem Token.Content.marker?_eq_none_iff (content : Token.Content) :
    content.marker? = none ↔ content.isMarker = false := by
  cases content <;> simp [marker?, isMarker]

namespace Section

variable {tokens body : List Token}

theorem divide_of_marker
    {token : Token}
    {name : String}
    (marker : token.content = .marker name) :
    divide (token :: tokens) =
      ([], ⟨name, token.location.line, trim (divide tokens).1⟩ :: (divide tokens).2) := by
  rw [divide, List.foldr_cons, prepend, marker]
  rfl

theorem divide_of_plain
    {token : Token}
    (plain : token.content.isMarker = false) :
    divide (token :: tokens) = (token :: (divide tokens).1, (divide tokens).2) := by
  rw [divide, List.foldr_cons, prepend]
  split
  · next name content =>
      rw [content] at plain
      cases plain
  · rfl

/-- What comes before the sections starts with the first token, unless that is a marker. -/
theorem head?_divide (tokens : List Token) :
    (divide tokens).1.head? = tokens.head?.filter fun token => !token.content.isMarker := by
  cases tokens with
  | nil => rfl
  | cons token tokens =>
      cases content : token.content with
      | marker name =>
          rw [divide_of_marker content, List.head?_cons,
            Option.filter_some_neg (by rw [content]; rfl)]
          rfl
      | _ =>
          rw [divide_of_plain (by rw [content]; rfl), List.head?_cons, List.head?_cons,
            Option.filter_some_pos (by rw [content]; rfl)]

/-- Tokens without a marker belong to what is open. -/
theorem divide_append
    (plain : ∀ token ∈ body, token.content.isMarker = false) :
    divide (body ++ tokens) = (body ++ (divide tokens).1, (divide tokens).2) := by
  induction body with
  | nil => rfl
  | cons token body hypothesis =>
      rw [List.forall_mem_cons] at plain
      rw [List.cons_append, divide_of_plain plain.1, hypothesis plain.2, List.cons_append]

/-- A marker and tokens without one make a section. -/
theorem divide_section
    {token : Token}
    {name : String}
    (marker : token.content = .marker name)
    (plain : ∀ token ∈ body, token.content.isMarker = false)
    (opened : (divide tokens).1 = []) :
    divide (token :: (body ++ tokens)) =
      ([], ⟨name, token.location.line, trim body⟩ :: (divide tokens).2) := by
  rw [divide_of_marker marker, divide_append plain, opened, List.append_nil]

/-- Every marker names a section, in order. -/
theorem map_name_divide (tokens : List Token) :
    (divide tokens).2.map (·.name) = tokens.filterMap (·.content.marker?) := by
  induction tokens with
  | nil => rfl
  | cons token tokens hypothesis =>
      cases content : token.content with
      | marker name =>
          rw [divide_of_marker content, List.map_cons, hypothesis,
            List.filterMap_cons_some (by rw [content]; rfl)]
      | _ =>
          rw [divide_of_plain (by rw [content]; rfl), hypothesis,
            List.filterMap_cons_none (by rw [content]; rfl)]

theorem divide_eq_self
    (plain : ∀ token ∈ body, token.content.isMarker = false) :
    divide body = (body, []) := by
  have divided : divide (body ++ []) = (body ++ [], []) := divide_append plain
  rwa [List.append_nil] at divided

/-- Without sections there are no markers. -/
theorem unmarked_of_divide
    (unmarked : (divide tokens).2 = []) :
    ∀ token ∈ tokens, token.content.isMarker = false := by
  have names := map_name_divide tokens
  rw [unmarked, List.map_nil, eq_comm, List.filterMap_eq_nil_iff] at names
  intro token listed
  exact (Token.Content.marker?_eq_none_iff _).mp (names token listed)

/-- A token that is neither a marker nor the end of a line stands in a section, or before them. -/
theorem mem_of_divide
    {token : Token}
    (listed : token ∈ tokens)
    (plain : token.content.isMarker = false)
    (inner : token.content ≠ .lineEnd) :
    token ∈ (divide tokens).1 ∨ ∃ part ∈ (divide tokens).2, token ∈ part.tokens := by
  have kept (body : List Token) (among : token ∈ body) : token ∈ trim body := by
    cases body with
    | nil => cases among
    | cons first body =>
        rw [trim]
        split
        · next ends =>
            obtain rfl | later := List.mem_cons.mp among
            · exact absurd ends inner
            · exact later
        · exact among
  induction tokens with
  | nil => cases listed
  | cons first tokens hypothesis =>
      cases content : first.content with
      | marker name =>
          rw [divide_of_marker content]
          obtain rfl | later := List.mem_cons.mp listed
          · rw [content] at plain
            cases plain
          · obtain leading | ⟨part, among, inside⟩ := hypothesis later
            · exact .inr ⟨_, List.mem_cons_self, kept _ leading⟩
            · exact .inr ⟨part, List.mem_cons_of_mem _ among, inside⟩
      | _ =>
          rw [divide_of_plain (by rw [content]; rfl)]
          obtain rfl | later := List.mem_cons.mp listed
          · exact .inl List.mem_cons_self
          · exact (hypothesis later).imp_left (List.mem_cons_of_mem _)

theorem trim_suffix (tokens : List Token) :
    trim tokens <:+ tokens := by
  cases tokens with
  | nil => exact List.suffix_rfl
  | cons token tokens =>
      rw [trim]
      split
      · exact List.suffix_cons token tokens
      · exact List.suffix_rfl

/-- Only the first token of a body can be dropped. -/
theorem trim_append
    (nonempty : body ≠ []) :
    trim (body ++ tokens) = trim body ++ tokens := by
  cases body with
  | nil => exact absurd rfl nonempty
  | cons token body =>
      rw [List.cons_append, trim, trim]
      split <;> rfl

/-- Tokens without a marker belong to the last section. -/
theorem divide_concat
    {sections : List Section}
    {last : Section}
    (divided : (divide tokens).2 = sections ++ [last])
    (nonempty : last.tokens ≠ [])
    (plain : ∀ token ∈ body, token.content.isMarker = false) :
    divide (tokens ++ body) =
      ((divide tokens).1, sections ++ [{ last with tokens := last.tokens ++ body }]) := by
  induction tokens generalizing sections with
  | nil => exact absurd divided.symm (by simp [divide])
  | cons token tokens hypothesis =>
      rw [List.cons_append]
      cases content : token.content with
      | marker name =>
          rw [divide_of_marker content] at divided ⊢
          rw [divide_of_marker content]
          cases sections with
          | nil =>
              obtain ⟨rfl, unmarked⟩ := List.cons.inj divided
              have loose := unmarked_of_divide unmarked
              have whole : divide (tokens ++ body) = (tokens ++ body, []) :=
                divide_eq_self (List.forall_mem_append.mpr ⟨loose, plain⟩)
              rw [divide_eq_self loose] at nonempty ⊢
              have filled : tokens ≠ [] := by
                rintro rfl
                exact nonempty rfl
              rw [whole, trim_append filled]
              rfl
          | cons first sections =>
              obtain ⟨rfl, later⟩ := List.cons.inj divided
              rw [hypothesis later]
              rfl
      | _ =>
          have ordinary : token.content.isMarker = false := by rw [content]; rfl
          rw [divide_of_plain ordinary] at divided ⊢
          rw [divide_of_plain ordinary, hypothesis divided]

/-- The tokens of a section stand together in the program. -/
theorem infix_of_mem_divide
    {part : Section}
    (divided : part ∈ (divide tokens).2) :
    part.tokens <:+: tokens := by
  have leading (tokens : List Token) : (divide tokens).1 <+: tokens := by
    induction tokens with
    | nil => exact List.prefix_rfl
    | cons token tokens hypothesis =>
        cases content : token.content with
        | marker name =>
            rw [divide_of_marker content]
            exact List.nil_prefix
        | _ =>
            rw [divide_of_plain (by rw [content]; rfl)]
            exact (List.prefix_cons_inj token).mpr hypothesis
  induction tokens with
  | nil => cases divided
  | cons token tokens hypothesis =>
      apply List.infix_cons
      cases content : token.content with
      | marker name =>
          rw [divide_of_marker content, List.mem_cons] at divided
          obtain rfl | later := divided
          · exact (trim_suffix _).isInfix.trans (leading tokens).isInfix
          · exact hypothesis later
      | _ =>
          rw [divide_of_plain (by rw [content]; rfl)] at divided
          exact hypothesis divided

/-- The tokens of the last section end the program. -/
theorem suffix_of_divide
    {sections : List Section}
    {last : Section}
    (divided : (divide tokens).2 = sections ++ [last]) :
    last.tokens <:+ tokens := by
  induction tokens generalizing sections with
  | nil => exact absurd divided.symm (by simp [divide])
  | cons token tokens hypothesis =>
      refine List.IsSuffix.trans ?_ (List.suffix_cons token tokens)
      cases content : token.content with
      | marker name =>
          rw [divide_of_marker content] at divided
          cases sections with
          | nil =>
              obtain ⟨rfl, unmarked⟩ := List.cons.inj divided
              rw [divide_eq_self (unmarked_of_divide unmarked)]
              exact trim_suffix tokens
          | cons first sections => exact hypothesis (List.cons.inj divided).2
      | _ =>
          rw [divide_of_plain (by rw [content]; rfl)] at divided
          exact hypothesis divided

end Section

namespace Layout

/-- A data section in front of a code section is a complete layout. -/
theorem ofTokens_of_sections
    {first second : Token}
    {data code : List Token}
    (dataMarker : first.content = .marker "data")
    (codeMarker : second.content = .marker "code")
    (plainData : ∀ token ∈ data, token.content.isMarker = false)
    (plainCode : ∀ token ∈ code, token.content.isMarker = false) :
    ofTokens (first :: (data ++ second :: code)) =
      .ok ⟨⟨"data", first.location.line, Section.trim data⟩,
        ⟨"code", second.location.line, Section.trim code⟩, true⟩ := by
  have behind : Section.divide (second :: code) =
      ([], [⟨"code", second.location.line, Section.trim code⟩]) := by
    have divided : Section.divide (second :: (code ++ [])) = _ :=
      Section.divide_section codeMarker plainCode rfl
    rwa [List.append_nil] at divided
  rw [ofTokens, Section.divide_section dataMarker plainData (by rw [behind]), behind]
  rfl

/-- A layout is complete exactly when it holds all the sections, in order, and its two sections
have their names. -/
theorem ofSections_eq_ok_iff
    (sections : List Section)
    (layout : Layout) :
    ofSections sections = .ok layout ↔
      sections = layout.inOrder ∧ layout.data.name = "data" ∧ layout.code.name = "code" := by
  unfold ofSections
  constructor
  · intro found
    dsimp only at found
    split at found
    · cases found
    · next hasData =>
        split at found
        · cases found
        · next hasCode =>
            split at found
            · next first second =>
                simp only [List.map_cons, List.map_nil, List.contains_cons, List.contains_nil,
                  Bool.or_false, Bool.not_eq_true', Bool.not_eq_false, Bool.or_eq_true,
                  beq_iff_eq] at hasData hasCode
                split at found
                · next named =>
                    cases found
                    refine ⟨rfl, named, ?_⟩
                    obtain same | same := hasCode
                    · rw [named] at same
                      exact absurd same (by decide)
                    · exact same.symm
                · next unnamed =>
                    cases found
                    have dataLast := hasData.resolve_left (Ne.symm unnamed)
                    refine ⟨rfl, dataLast.symm, ?_⟩
                    obtain same | same := hasCode
                    · exact same.symm
                    · rw [← dataLast] at same
                      exact absurd same (by decide)
            · cases found
  · rintro ⟨rfl, dataName, codeName⟩
    obtain ⟨data, code, dataFirst⟩ := layout
    cases dataFirst <;> simp_all [inOrder]

/-- A program has a layout exactly when nothing stands before its sections and these make one. -/
theorem ofTokens_eq_ok_iff
    (tokens : List Token)
    (layout : Layout) :
    ofTokens tokens = .ok layout ↔
      Section.divide tokens = ([], layout.inOrder) ∧ layout.data.name = "data" ∧
        layout.code.name = "code" := by
  unfold ofTokens
  constructor
  · intro found
    split at found
    · cases found
    · next sections divided =>
        obtain ⟨rfl, named⟩ := (ofSections_eq_ok_iff ..).mp found
        exact ⟨divided, named⟩
  · rintro ⟨divided, named⟩
    rw [divided]
    exact (ofSections_eq_ok_iff ..).mpr ⟨rfl, named⟩

section

variable {tokens body : List Token} {layout : Layout}

/-- The data section comes first exactly when the last marker opens the code section. -/
theorem dataFirst_iff
    (divided : ofTokens tokens = .ok layout) :
    layout.dataFirst = true ↔ (tokens.filterMap (·.content.marker?)).getLast? = some "code" := by
  obtain ⟨divided, dataName, codeName⟩ := (ofTokens_eq_ok_iff ..).mp divided
  rw [← Section.map_name_divide, divided, inOrder]
  cases layout.dataFirst <;> simp [dataName, codeName]

theorem infix_of_ofTokens
    (divided : ofTokens tokens = .ok layout) :
    layout.data.tokens <:+: tokens ∧ layout.code.tokens <:+: tokens := by
  obtain ⟨divided, _⟩ := (ofTokens_eq_ok_iff ..).mp divided
  have inside {part : Section} (listed : part ∈ layout.inOrder) : part.tokens <:+: tokens :=
    Section.infix_of_mem_divide (by rw [divided]; exact listed)
  constructor <;> apply inside <;> rw [inOrder] <;> split <;> simp

/-- If the data section comes first, the code section is the last one. -/
theorem divide_of_dataFirst
    (divided : ofTokens tokens = .ok layout)
    (dataFirst : layout.dataFirst = true) :
    Section.divide tokens = ([], [layout.data] ++ [layout.code]) := by
  obtain ⟨divided, _⟩ := (ofTokens_eq_ok_iff ..).mp divided
  rw [divided, inOrder, if_pos dataFirst]
  rfl

theorem suffix_of_dataFirst
    (divided : ofTokens tokens = .ok layout)
    (dataFirst : layout.dataFirst = true) :
    layout.code.tokens <:+ tokens :=
  Section.suffix_of_divide (congrArg Prod.snd (divide_of_dataFirst divided dataFirst))

/-- Tokens behind a program whose code section comes last belong to that section. -/
theorem ofTokens_append
    (divided : ofTokens tokens = .ok layout)
    (dataFirst : layout.dataFirst = true)
    (nonempty : layout.code.tokens ≠ [])
    (plain : ∀ token ∈ body, token.content.isMarker = false) :
    ofTokens (tokens ++ body) =
      .ok { layout with code.tokens := layout.code.tokens ++ body } := by
  have sections := divide_of_dataFirst divided dataFirst
  obtain ⟨_, named⟩ := (ofTokens_eq_ok_iff ..).mp divided
  rw [ofTokens_eq_ok_iff, Section.divide_concat (congrArg Prod.snd sections) nonempty plain,
    sections]
  refine ⟨?_, named⟩
  dsimp only [inOrder]
  rw [if_pos dataFirst]
  rfl

end

end Layout
end WordAsm
