import WordAsm.Proofs.Assembly.Stages
import WordAsm.Proofs.Failure.Categories

/-!
# Symbols stay declared from stage to stage

The labels of a program are collected before its operands are resolved, and once more when its
labels get addresses. Both views agree, so whatever is still a reference after resolving has an
address, and encoding never meets an undeclared symbol. A whole assembly reports one only where an
operand is resolved.
-/

namespace WordAsm

open Outcome (FailsWithin)

/-! ## Labels with addresses -/

namespace Address

/-- Every declaration of a label is bound, in order. -/
theorem map_name_bindingsFrom
    (address : Nat)
    (tokens : List Token) :
    (bindingsFrom address #[] tokens).map (·.name) = Symbols.labelsOf tokens := by
  induction tokens generalizing address with
  | nil => rfl
  | cons token tokens hypothesis =>
      rw [bindingsFrom, bindingsFrom_eq_append, List.map_append, hypothesis, Symbols.labelsOf,
        Symbols.labelsOf, List.filterMap_cons]
      cases token.content <;> rfl

/-- Labels that are declared once get their addresses in order. -/
theorem names_table
    {tokens : List Token}
    (distinct : (Symbols.labelsOf tokens).Nodup) :
    (table tokens).names = Symbols.labelsOf tokens := by
  have names_eq : ((bindings tokens).map fun binding =>
      (binding.name, (binding.address : Int))).map (·.1) = Symbols.labelsOf tokens := by
    rw [List.map_map]
    exact map_name_bindingsFrom 0 tokens
  rw [Table.names, table, Table.entries_ofList (names_eq ▸ distinct), names_eq]

end Address

/-! ## References that are left -/

namespace Symbols

/-- The labels of the symbols are those that resolved tokens bind, and the tokens refer to nothing
else. -/
structure ClosedIn
    (symbols : Symbols)
    (resolved : List Token) : Prop where
  names_eq : (Address.table resolved).names = symbols.labels
  bound : ∀ token ∈ resolved, ∀ name, token.content = .symbol name →
    name ∈ (Address.table resolved).names

theorem closedIn_of_resolveAll
    {code resolved : List Token}
    {constants : List Constant}
    {entryPoint : String}
    {symbols : Symbols}
    (validated : validate code constants entryPoint = .ok symbols)
    (resolves : Token.resolveAll symbols code = .ok resolved) :
    symbols.ClosedIn resolved := by
  obtain ⟨distinct, _, _, rfl⟩ := (validate_eq_ok_iff ..).mp validated
  have names_eq : (Address.table resolved).names = labelsOf code := by
    have same := Assembly.labelsOf_of_resolveAll resolves
    rw [Address.names_table (same ▸ distinct), same]
  refine ⟨names_eq, fun token listed name content => ?_⟩
  have each := ((Token.resolveAll_eq_ok_iff ..).mp resolves).flip
  obtain ⟨source, _, resolves, _⟩ := Outcome.exists_of_forall₂_of_mem each listed
  rw [names_eq]
  rw [content] at resolves
  generalize source.content = original at resolves
  cases resolves with
  | reference _ declared => exact declared
  | other plain => cases plain

/-- Code whose references are bound has no undeclared symbol. -/
theorem ClosedIn.failsWithin_generate
    {symbols : Symbols}
    {resolved : List Token}
    (closed : symbols.ClosedIn resolved) :
    FailsWithin (Code.generate resolved) Encoder.categories := by
  apply Code.failsWithin_generate
  intro token listed name content
  exact (Table.contains_iff_mem_names ..).mpr (closed.bound token listed name content)

end Symbols

/-! ## Undeclared symbols -/

namespace Token

/-- Resolving a token reports an undeclared symbol exactly for a reference to no constant and no
label. -/
theorem resolve_eq_undeclared_iff
    (symbols : Symbols)
    (token : Token)
    (fault : Fault) :
    (resolve symbols token = .error (.program fault) ∧
        fault.cause.category = .undeclaredSymbol) ↔
      ∃ name, token.content = .symbol name ∧ symbols.constants.get? name = none ∧
        name ∉ symbols.labels ∧
        fault = {
          cause := .undeclaredSymbol name (symbols.similar name)
          location := some token.location } := by
  rw [resolve, Outcome.map_eq_error_iff]
  constructor
  · rintro ⟨failed, undeclared⟩
    cases content : token.content with
    | symbol name =>
        rw [content, resolveContent] at failed
        split at failed
        · cases failed
        · next absent =>
            split at failed
            · cases failed
            · next unlabelled =>
                cases failed
                refine ⟨name, rfl, absent, fun listed => ?_, rfl⟩
                exact unlabelled (List.contains_iff_mem.mpr listed)
    | character text =>
        have within : FailsWithin (resolveContent symbols token.location (.character text))
            [.misplacedToken] := by
          refine ((failsWithin_codePoint text).widen (by simp)).bind fun point => ?_
          split
          · exact FailsWithin.ofFault (by simp [Cause.category])
          · exact FailsWithin.ok _
        rw [content] at failed
        exact absurd undeclared (within.category_ne failed (by decide))
    | register name =>
        rw [content, resolveContent] at failed
        split at failed <;> cases failed
    | _ =>
        rw [content] at failed
        cases failed
  · rintro ⟨name, content, absent, unlabelled, rfl⟩
    refine ⟨?_, rfl⟩
    rw [content, resolveContent, absent]
    exact if_neg fun listed => unlabelled (List.contains_iff_mem.mp listed)

end Token

namespace Assembly

/-- Whether a name is that of a constant or of a label of the code. -/
def Declared
    (constants : List Constant)
    (code : List Token)
    (name : String) : Prop :=
  name ∈ constants.map (·.name) ∨ name ∈ Symbols.labelsOf code

/-- The first token of the code that cannot be resolved, which is also the first reference to a
name that is not declared. -/
structure FirstUndeclared
    (symbols : Symbols)
    (constants : List Constant)
    (code : List Token)
    (token : Token)
    (name : String) : Prop where
  content : token.content = .symbol name
  undeclared : ¬ Declared constants code name
  first : ∃ front back resolved, code = front ++ token :: back ∧
    Token.resolveAll symbols front = .ok resolved ∧
    ∀ earlier ∈ front, ∀ other, earlier.content = .symbol other → Declared constants code other

/-- What resolves refers to declared names only. -/
theorem declared_of_resolveAll
    {code front resolved : List Token}
    {constants : List Constant}
    {token : Token}
    {name : String}
    (resolves : Token.resolveAll ⟨Symbols.labelsOf code, Constant.table constants⟩ front =
      .ok resolved)
    (listed : token ∈ front)
    (content : token.content = .symbol name) :
    Declared constants code name := by
  have each := (Token.resolveAll_eq_ok_iff ..).mp resolves
  obtain ⟨result, _, resolves, _⟩ := Outcome.exists_of_forall₂_of_mem each listed
  rw [content] at resolves
  generalize result.content = final at resolves
  cases resolves with
  | constant found =>
      obtain ⟨declared, rfl⟩ := Symbols.mem_of_constantTable_get? found
      exact .inl (List.mem_map_of_mem declared)
  | reference _ declared => exact .inr declared
  | other plain => cases plain

/-- Resolving reports an undeclared symbol exactly at the first reference to a name that is not
declared, if nothing before it fails. -/
theorem resolveAll_eq_undeclared_iff
    {code : List Token}
    {constants : List Constant}
    {entryPoint : String}
    {symbols : Symbols}
    (validated : Symbols.validate code constants entryPoint = .ok symbols)
    (fault : Fault) :
    (Token.resolveAll symbols code = .error (.program fault) ∧
        fault.cause.category = .undeclaredSymbol) ↔
      ∃ token name, FirstUndeclared symbols constants code token name ∧
        fault = {
          cause := .undeclaredSymbol name (symbols.similar name)
          location := some token.location } := by
  obtain ⟨_, _, _, rfl⟩ := (Symbols.validate_eq_ok_iff ..).mp validated
  rw [Token.resolveAll, Outcome.mapM_eq_error_iff]
  constructor
  · rintro ⟨⟨front, token, back, resolved, code_eq, resolves, failed⟩, undeclared⟩
    obtain ⟨name, content, absent, unlabelled, rfl⟩ :=
      (Token.resolve_eq_undeclared_iff ..).mp ⟨failed, undeclared⟩
    rw [Symbols.constantTable_get?_eq_none_iff] at absent
    refine ⟨token, name, ⟨content, ?_, front, back, resolved, code_eq, resolves, ?_⟩, rfl⟩
    · rintro (constant | label)
      · exact absent constant
      · exact unlabelled label
    · intro earlier listed other content
      exact declared_of_resolveAll resolves listed content
  · rintro ⟨token, name, ⟨content, undeclared, front, back, resolved, code_eq, resolves, _⟩, rfl⟩
    have absent := (Symbols.constantTable_get?_eq_none_iff ..).mpr fun listed =>
      undeclared (.inl listed)
    obtain ⟨failed, category⟩ :=
      (Token.resolve_eq_undeclared_iff ⟨Symbols.labelsOf code, Constant.table constants⟩ ..).mpr
        ⟨name, content, absent, fun listed => undeclared (.inr listed), rfl⟩
    exact ⟨⟨front, token, back, resolved, code_eq, resolves, failed⟩, category⟩

/-- Once the names of a program have passed and its operands are resolved, the labels with
addresses are those that were collected, in the same order, every remaining reference is one of
them, and generating code reports no undeclared symbol. An assembly reports one exactly where an
operand is resolved: at the first reference to a name that is neither constant nor label, if no
token before it fails. -/
theorem closed_and_undeclared_iff :
    (∀ code constants entryPoint symbols resolved,
      Symbols.validate code constants entryPoint = .ok symbols →
      Token.resolveAll symbols code = .ok resolved →
      (Address.table resolved).names = symbols.labels ∧
        (∀ token ∈ resolved, ∀ name, token.content = .symbol name →
          name ∈ (Address.table resolved).names) ∧
        ∀ fault, Code.generate resolved = .error (.program fault) →
          fault.cause.category ≠ .undeclaredSymbol) ∧
    ∀ settings tokens fault,
      (ofTokens settings tokens = .error (.program fault) ∧
          fault.cause.category = .undeclaredSymbol) ↔
        ∃ layout constants symbols token name,
          Layout.ofTokens tokens = .ok layout ∧
          Constant.compile layout.data.tokens = .ok constants ∧
          Symbols.validate layout.code.tokens constants settings.entryPoint = .ok symbols ∧
          FirstUndeclared symbols constants layout.code.tokens token name ∧
          fault = {
            cause := .undeclaredSymbol name (symbols.similar name)
            location := some token.location } := by
  refine ⟨?_, ?_⟩
  · intro code constants entryPoint symbols resolved validated resolves
    have closed := Symbols.closedIn_of_resolveAll validated resolves
    refine ⟨closed.names_eq, closed.bound, fun fault failed => ?_⟩
    exact closed.failsWithin_generate.category_ne failed (by decide)
  · intro settings tokens fault
    rw [ofTokens, Outcome.bind_eq_error_iff]
    -- Only the stage that resolves operands has undeclared symbols among its categories.
    constructor
    · rintro ⟨failed | ⟨layout, divided, failed⟩, undeclared⟩
      · have within := Layout.failsWithin_ofTokens tokens
        exact absurd undeclared (within.category_ne failed (by decide))
      obtain failed | ⟨constants, compiled, failed⟩ := Outcome.bind_eq_error_iff.mp failed
      · have within := Constant.failsWithin_compile layout.data.tokens
        exact absurd undeclared (within.category_ne failed (by decide))
      obtain failed | ⟨symbols, validated, failed⟩ := Outcome.bind_eq_error_iff.mp failed
      · have within := Symbols.failsWithin_validate layout.code.tokens constants settings.entryPoint
        exact absurd undeclared (within.category_ne failed (by decide))
      obtain failed | ⟨resolved, resolves, failed⟩ := Outcome.bind_eq_error_iff.mp failed
      · obtain ⟨token, name, first, rfl⟩ :=
          (resolveAll_eq_undeclared_iff validated fault).mp ⟨failed, undeclared⟩
        exact ⟨layout, constants, symbols, token, name, divided, compiled, validated, first, rfl⟩
      obtain failed | ⟨_, _, failed⟩ := Outcome.bind_eq_error_iff.mp failed
      · have within := (Symbols.closedIn_of_resolveAll validated resolves).failsWithin_generate
        exact absurd undeclared (within.category_ne failed (by decide))
      · cases failed
    · rintro ⟨layout, constants, symbols, token, name, divided, compiled, validated, first, rfl⟩
      obtain ⟨failed, undeclared⟩ :=
        (resolveAll_eq_undeclared_iff validated _).mpr ⟨token, name, first, rfl⟩
      exact ⟨.inr ⟨layout, divided,
        Outcome.bind_eq_error_iff.mpr (.inr ⟨constants, compiled,
        Outcome.bind_eq_error_iff.mpr (.inr ⟨symbols, validated,
        Outcome.bind_eq_error_iff.mpr (.inl failed)⟩)⟩)⟩, undeclared⟩

/-- A jump to a label, and a jump to a name that is not declared. -/
theorem closed_and_undeclared_of_jump :
    (∃ tokens, ∃ stages : Stages {} tokens,
      Token.ofSource ".data\n.code\nmain: JMP main" "<input>" = .ok tokens ∧
      (Address.table stages.resolved).names = stages.symbols.labels) ∧
    ∃ tokens layout constants symbols token,
      Token.ofSource ".data\n.code\nmain: JMP mian" "<input>" = .ok tokens ∧
      Layout.ofTokens tokens = .ok layout ∧
      FirstUndeclared symbols constants layout.code.tokens token "mian" ∧
      token.location = { line := 3, column := 11 } := by
  have assembled : (Token.ofSource ".data\n.code\nmain: JMP main" "<input>" >>= ofTokens {}) =
      .ok {
        words := [6, 0, 0, 0]
        labels := ⟨[("main", 0)]⟩
        entries := [⟨0, 3, "JMP", [6, 0]⟩] } := by
    decide +kernel
  have failed : (Token.ofSource ".data\n.code\nmain: JMP mian" "<input>" >>= ofTokens {}) =
      .error (.program {
        cause := .undeclaredSymbol "mian" ["main"]
        location := some { line := 3, column := 11 } }) := by
    decide +kernel
  constructor
  · obtain ⟨tokens, read, assembled⟩ := Outcome.bind_eq_ok_iff.mp assembled
    obtain ⟨stages, _⟩ := (ofTokens_eq_ok_iff ..).mp assembled
    obtain ⟨names_eq, _⟩ := closed_and_undeclared_iff.1 _ _ _ _ _ stages.validated stages.resolves
    exact ⟨tokens, stages, read, names_eq⟩
  · obtain unread | ⟨tokens, read, failed⟩ := Outcome.bind_eq_error_iff.mp failed
    · exact absurd unread (by decide +kernel)
    · obtain ⟨layout, constants, symbols, token, name, divided, _, _, first, fault_eq⟩ :=
        (closed_and_undeclared_iff.2 {} tokens _).mp ⟨failed, rfl⟩
      simp only [Fault.mk.injEq, Cause.undeclaredSymbol.injEq, Option.some.injEq] at fault_eq
      obtain ⟨⟨rfl, _⟩, location_eq, _⟩ := fault_eq
      exact ⟨tokens, layout, constants, symbols, token, read, divided, first, location_eq.symm⟩

end Assembly
end WordAsm
