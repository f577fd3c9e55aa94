import WordAsm.Constant.Compile
import WordAsm.Proofs.Outcome
import WordAsm.Proofs.Table

/-!
# The language of the data section

A declaration is a name, a type word, a literal of that type and the end of the line. A list of
tokens compiles exactly when it is a row of declarations, and the values that they give their
names lie in the value space.
-/

namespace WordAsm

/-- The code point of a text that is a single character. -/
theorem codePoint_eq_ok_iff
    (text : String)
    (point : Nat) :
    codePoint text = .ok point ↔ ∃ c, text.toList = [c] ∧ point = c.toNat := by
  unfold codePoint
  constructor
  · intro read
    split at read
    · next c single =>
        cases read
        exact ⟨c, single, rfl⟩
    · cases read
  · rintro ⟨c, single, rfl⟩
    rw [single]

namespace Constant

/-- A literal of a type and the value that it stands for. -/
inductive Value : ConstantType → Token.Content → Int → Prop
  | number (value : Int) :
      Value .number (.number value) (value % 32768)
  | character {text : String} {c : Char} :
      text.toList = [c] →
      c.toNat < 32768 →
      Value .character (.character text) c.toNat

/-- Declarations in a row and the constants that they declare. -/
inductive Declarations : List Token → List Constant → Prop
  | nil :
      Declarations [] []
  | cons {first second third fourth : Token} {tokens : List Token} {name : String}
      {type : ConstantType} {value : Int} {constants : List Constant} :
      first.content = .symbol name →
      second.content = .typeWord type.word →
      Value type third.content value →
      fourth.content = .lineEnd →
      Declarations tokens constants →
      Declarations (first :: second :: third :: fourth :: tokens)
        (⟨name, value, first.location.line, first.location.file⟩ :: constants)

theorem nameOf_eq_ok_iff
    (token : Token)
    (name : String) :
    nameOf token = .ok name ↔ token.content = .symbol name := by
  unfold nameOf
  constructor
  · intro read
    split at read
    · next content =>
        cases read
        exact content
    · cases read
  · intro content
    rw [content]

theorem ofWord?_eq_some_iff
    (word : String)
    (type : ConstantType) :
    ConstantType.ofWord? word = some type ↔ word = type.word := by
  unfold ConstantType.ofWord?
  constructor
  · intro read
    split at read
    · next named =>
        cases read
        exact named
    · split at read
      · next named =>
          cases read
          exact named
      · cases read
  · rintro rfl
    cases type <;> rfl

theorem typeOf_eq_ok_iff
    (token : Token)
    (type : ConstantType) :
    typeOf token = .ok type ↔ token.content = .typeWord type.word := by
  unfold typeOf
  constructor
  · intro read
    split at read
    · next word content =>
        split at read
        · next found =>
            cases read
            rw [content, (ofWord?_eq_some_iff ..).mp found]
        · cases read
    · cases read
  · intro content
    simp [content, (ofWord?_eq_some_iff _ type).mpr rfl]

/-- A token is a literal of a type, and the literal has a value, exactly when the token stands
for that value. -/
theorem value_iff
    (name : String)
    (type : ConstantType)
    (token : Token)
    (value : Int) :
    (∃ literal, literalOf name type token = .ok literal ∧
        literal.value name token.location = .ok value) ↔
      Value type token.content value := by
  constructor
  · rintro ⟨literal, read, valued⟩
    unfold literalOf at read
    split at read
    · next number content =>
        cases read
        cases valued
        rw [content]
        exact .number number
    · next text content =>
        cases read
        rw [content]
        obtain ⟨point, point_eq, bounded⟩ := Outcome.bind_eq_ok_iff.mp valued
        obtain ⟨c, single, rfl⟩ := (codePoint_eq_ok_iff ..).mp point_eq
        split at bounded
        · cases bounded
        · next small =>
            cases bounded
            exact .character single (Nat.lt_of_not_le small)
    · cases read
    · cases read
    · cases read
  · intro valued
    generalize content : token.content = found at valued
    cases valued with
    | number number => exact ⟨.number number, by simp [literalOf, content], rfl⟩
    | @character text c single small =>
        refine ⟨.character text, by simp [literalOf, content], ?_⟩
        rw [Literal.value, Outcome.bind_eq_ok_iff]
        exact ⟨c.toNat, (codePoint_eq_ok_iff ..).mpr ⟨c, single, rfl⟩,
          if_neg (Nat.not_le_of_lt small)⟩

/-! ## One declaration -/

/-- The next token of a declaration, before which the section must not end. -/
def next
    (part : DeclarationPart)
    (last : Token) : List Token → Except Failure (Token × List Token)
  | [] => .error (endsBefore part last)
  | token :: rest => .ok (token, rest)

/-- Require the end of the line. -/
def requireLineEnd (token : Token) : Except Failure Unit :=
  if token.content ≠ .lineEnd then .error (unexpected .lineEnd token) else .ok ()

/-- The constant that the declaration from a token on declares, and the tokens behind the
declaration. -/
def declaration
    (first : Token)
    (tokens : List Token) : Except Failure (Constant × List Token) := do
  let name ← nameOf first
  let second ← next .typeWord first tokens
  let type ← typeOf second.1
  let third ← next (.literal type) second.1 second.2
  let literal ← literalOf name type third.1
  let fourth ← next .lineEnd third.1 third.2
  requireLineEnd fourth.1
  let value ← literal.value name third.1.location
  .ok ({ name, value, line := first.location.line, file := first.location.file }, fourth.2)

/-- A section is compiled declaration by declaration. -/
theorem declarations_cons
    (before : Array Constant)
    (first : Token)
    (tokens : List Token) :
    declarations before (first :: tokens) =
      declaration first tokens >>= fun made => declarations (before.push made.1) made.2 := by
  rw [declarations]
  simp only [declaration, next, requireLineEnd, bind, Except.bind]
  cases nameOf first with
  | error => rfl
  | ok name =>
      cases tokens with
      | nil => rfl
      | cons second tokens =>
          dsimp only
          cases typeOf second with
          | error => rfl
          | ok type =>
              cases tokens with
              | nil => rfl
              | cons third tokens =>
                  dsimp only
                  cases literalOf name type third with
                  | error => rfl
                  | ok literal =>
                      cases tokens with
                      | nil => rfl
                      | cons fourth tokens =>
                          dsimp only
                          split
                          · rfl
                          · dsimp only
                            cases literal.value name third.location <;> rfl

theorem next_eq_ok_iff
    {part : DeclarationPart}
    {last : Token}
    {tokens : List Token}
    {found : Token × List Token} :
    next part last tokens = .ok found ↔ tokens = found.1 :: found.2 := by
  cases tokens with
  | nil => simp [next]
  | cons token rest => simp [next, Prod.ext_iff]

theorem requireLineEnd_eq_ok_iff (token : Token) :
    requireLineEnd token = .ok () ↔ token.content = .lineEnd := by
  simp [requireLineEnd]

/-- A declaration is a name, a type word, a literal of the type and the end of the line. -/
theorem declaration_eq_ok_iff
    (first : Token)
    (tokens : List Token)
    (made : Constant × List Token) :
    declaration first tokens = .ok made ↔
      ∃ second third fourth name type value,
        tokens = second :: third :: fourth :: made.2 ∧ first.content = .symbol name ∧
        second.content = .typeWord type.word ∧ Value type third.content value ∧
        fourth.content = .lineEnd ∧
        made.1 = ⟨name, value, first.location.line, first.location.file⟩ := by
  simp only [declaration, Outcome.bind_eq_ok_iff, nameOf_eq_ok_iff, next_eq_ok_iff,
    typeOf_eq_ok_iff]
  constructor
  · rintro ⟨name, named, second, rfl, type, typed, third, third_eq, literal, read, fourth,
      fourth_eq, _, ended, value, valued, made_eq⟩
    cases made_eq
    have value_eq := (value_iff name ..).mp ⟨literal, read, valued⟩
    have end_eq := (requireLineEnd_eq_ok_iff _).mp ended
    refine ⟨second.1, third.1, fourth.1, name, type, value, ?_, named, typed, value_eq, end_eq, rfl⟩
    rw [third_eq, fourth_eq]
  · obtain ⟨constant, rest⟩ := made
    rintro ⟨second, third, fourth, name, type, value, rfl, named, typed, valued, ended, rfl⟩
    obtain ⟨literal, read, literal_value⟩ := (value_iff name ..).mpr valued
    have end_eq := (requireLineEnd_eq_ok_iff _).mpr ended
    exact ⟨name, named, (second, _), rfl, type, typed, (third, _), rfl, literal, read,
      (fourth, _), rfl, (), end_eq, value, literal_value, rfl⟩

/-- What holds of an empty section, and of one that starts with a declaration if it holds of what
follows, holds of every section. -/
theorem declarations_induction
    {motive : Array Constant → List Token → Prop}
    (nil : ∀ before, motive before [])
    (cons : ∀ before first tokens,
      (∀ made, declaration first tokens = .ok made → motive (before.push made.1) made.2) →
        motive before (first :: tokens))
    (before : Array Constant)
    (tokens : List Token) :
    motive before tokens := by
  induction length_eq : tokens.length using Nat.strongRecOn generalizing before tokens with
  | ind length hypothesis =>
      cases tokens with
      | nil => exact nil before
      | cons first tokens =>
          apply cons
          intro made declared
          obtain ⟨_, _, _, _, _, _, rfl, _⟩ := (declaration_eq_ok_iff ..).mp declared
          simp only [List.length_cons] at length_eq
          exact hypothesis _ (by omega) _ _ rfl

/-! ## Declarations in a row -/

/-- Compiled tokens are declarations, whose constants follow those before them. -/
theorem exists_declarations_of_ok
    {before : Array Constant}
    {tokens : List Token}
    {constants : List Constant}
    (compiled : declarations before tokens = .ok constants) :
    ∃ later, Declarations tokens later ∧ constants = before.toList ++ later := by
  induction before, tokens using declarations_induction with
  | nil before =>
      cases compiled
      exact ⟨[], .nil, (List.append_nil _).symm⟩
  | cons before first tokens hypothesis =>
      rw [declarations_cons] at compiled
      obtain ⟨⟨constant, rest⟩, declared, compiled⟩ := Outcome.bind_eq_ok_iff.mp compiled
      obtain ⟨later, behind, rfl⟩ := hypothesis _ declared compiled
      obtain ⟨_, _, _, _, _, _, rfl, named, typed, valued, ended, rfl⟩ :=
        (declaration_eq_ok_iff ..).mp declared
      exact ⟨_, .cons named typed valued ended behind, by simp⟩

/-- Declarations compile, and what follows them is compiled behind their constants. -/
theorem Declarations.declarations_append
    {front : List Token}
    {constants : List Constant}
    (declared : Declarations front constants)
    (before : Array Constant)
    (tokens : List Token) :
    declarations before (front ++ tokens) = declarations (before ++ constants.toArray) tokens := by
  induction declared generalizing before with
  | nil => rw [List.nil_append, Array.append_empty]
  | @cons first second third fourth front name type value constants named typed valued ended _
      hypothesis =>
      have here := (declaration_eq_ok_iff first _ (_, front ++ tokens)).mpr
        ⟨second, third, fourth, name, type, value, rfl, named, typed, valued, ended, rfl⟩
      rw [List.cons_append, List.cons_append, List.cons_append, List.cons_append,
        declarations_cons, here]
      change declarations _ (front ++ tokens) = _
      rw [hypothesis]
      simp

/-- Declarations compile, and their constants follow those before them. -/
theorem Declarations.declarations_eq
    {tokens : List Token}
    {constants : List Constant}
    (declared : Declarations tokens constants)
    (before : Array Constant) :
    declarations before tokens = .ok (before.toList ++ constants) := by
  have compiled := declared.declarations_append before []
  rw [List.append_nil] at compiled
  rw [compiled, declarations]
  simp

/-- No name is taken exactly when the names differ from each other and from those before. -/
theorem firstRepeat_eq_none_iff
    (before : Table Constant)
    (constants : List Constant) :
    firstRepeat before constants = none ↔
      (∀ name ∈ constants.map (·.name), before.get? name = none) ∧
        (constants.map (·.name)).Nodup := by
  induction constants generalizing before with
  | nil => simp [firstRepeat]
  | cons constant constants hypothesis =>
      rw [firstRepeat, List.map_cons, List.nodup_cons, List.forall_mem_cons]
      cases taken : before.get? constant.name with
      | some earlier => simp
      | none =>
          dsimp only
          rw [hypothesis, Table.forall_get?_insert_eq_none_iff]
          constructor
          · rintro ⟨⟨fresh, free⟩, distinct⟩
            exact ⟨⟨rfl, free⟩, fresh, distinct⟩
          · rintro ⟨⟨_, free⟩, fresh, distinct⟩
            exact ⟨⟨fresh, free⟩, distinct⟩

/-- A data section compiles exactly when it is a row of declarations of different names. -/
theorem compile_eq_ok_iff
    (tokens : List Token)
    (constants : List Constant) :
    compile tokens = .ok constants ↔
      Declarations tokens constants ∧ (constants.map (·.name)).Nodup := by
  have fresh (constants : List Constant) :
      firstRepeat {} constants = none ↔ (constants.map (·.name)).Nodup := by
    rw [firstRepeat_eq_none_iff]
    exact ⟨fun taken => taken.2, fun distinct => ⟨fun _ _ => rfl, distinct⟩⟩
  rw [compile, Outcome.bind_eq_ok_iff]
  constructor
  · rintro ⟨found, read, compiled⟩
    split at compiled
    · cases compiled
    · next distinct =>
        cases compiled
        obtain ⟨later, declared, rfl⟩ := exists_declarations_of_ok read
        exact ⟨declared, (fresh _).mp distinct⟩
  · rintro ⟨declared, distinct⟩
    refine ⟨constants, declared.declarations_eq #[], ?_⟩
    rw [(fresh constants).mpr distinct]

/-- Every declared constant is named by a token. -/
theorem Declarations.exists_symbol
    {tokens : List Token}
    {constants : List Constant}
    (declared : Declarations tokens constants) :
    ∀ constant ∈ constants, ∃ token ∈ tokens, token.content = .symbol constant.name := by
  induction declared with
  | nil => simp
  | cons named _ _ _ _ hypothesis =>
      rw [List.forall_mem_cons]
      refine ⟨⟨_, List.mem_cons_self, named⟩, ?_⟩
      intro constant listed
      obtain ⟨token, among, content⟩ := hypothesis constant listed
      exact ⟨token, by simp [among], content⟩

/-- Declarations name constants, and no labels. -/
theorem Declarations.mem_names
    {tokens : List Token}
    {constants : List Constant}
    {token : Token}
    (declared : Declarations tokens constants)
    (listed : token ∈ tokens)
    (name : String) :
    token.content ≠ .label name ∧
      (token.content = .symbol name → name ∈ constants.map (·.name)) := by
  induction declared with
  | nil => cases listed
  | @cons first second third fourth _ _ _ _ _ named typed valued ended _ hypothesis =>
      simp only [List.mem_cons] at listed
      obtain rfl | rfl | rfl | rfl | later := listed
      · rw [named]
        exact ⟨by simp, fun same => by cases same; simp⟩
      · rw [typed]
        exact ⟨by simp, by simp⟩
      · generalize token.content = content at valued
        cases valued <;> exact ⟨by simp, by simp⟩
      · rw [ended]
        exact ⟨by simp, by simp⟩
      · obtain ⟨unlabelled, constant⟩ := hypothesis later
        exact ⟨unlabelled, fun content => List.mem_cons_of_mem _ (constant content)⟩

/-- The values of declared constants lie in the value space. -/
theorem Declarations.value_bounds
    {tokens : List Token}
    {constants : List Constant}
    (declared : Declarations tokens constants) :
    ∀ constant ∈ constants, 0 ≤ constant.value ∧ constant.value < 32768 := by
  induction declared with
  | nil => simp
  | @cons _ _ third _ _ _ _ value _ _ _ valued _ _ hypothesis =>
      rw [List.forall_mem_cons]
      refine ⟨?_, hypothesis⟩
      generalize third.content = content at valued
      cases valued with
      | number value => dsimp only; omega
      | character _ small => dsimp only; omega

end Constant
end WordAsm
