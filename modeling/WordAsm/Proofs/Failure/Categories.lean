import WordAsm.Assembly
import WordAsm.Proofs.Constant.Declarations
import WordAsm.Proofs.Outcome

/-!
# Categories of failures

Every stage has its own categories of faults. That stages in a row, or the steps of a run, keep to
some categories follows from the single ones. What is no fault of the program, such as a number
beyond the decimal limit, has no category and is not restricted here.
-/

namespace WordAsm

/-- Whether a failure has one of some categories, if it is a fault of the program. -/
def Failure.Within
    (failure : Failure)
    (categories : List Category) : Prop :=
  ∀ fault, failure = .program fault → fault.cause.category ∈ categories

theorem Failure.within_ofFault
    {fault : Fault}
    {categories : List Category}
    (listed : fault.cause.category ∈ categories) :
    (ofFault fault).Within categories := by
  intro other same
  rw [ofFault] at same
  split at same
  · cases same
    exact listed
  · cases same

namespace Outcome

variable {α β : Type}

/-- A stage whose faults have one of some categories. -/
def FailsWithin
    (outcome : Except Failure α)
    (categories : List Category) : Prop :=
  ∀ failure, outcome = .error failure → failure.Within categories

namespace FailsWithin

variable {categories : List Category}

/-- No fault has a category that is not among those of the stage. -/
theorem category_ne
    {outcome : Except Failure α}
    {fault : Fault}
    {category : Category}
    (stage : FailsWithin outcome categories)
    (failed : outcome = .error (.program fault))
    (absent : category ∉ categories) :
    fault.cause.category ≠ category := by
  rintro rfl
  exact absent (stage _ failed fault rfl)

theorem ok (result : α) : FailsWithin (.ok result) categories := by
  intro failure failed
  cases failed

theorem ofWithin
    {failure : Failure}
    (within : failure.Within categories) :
    FailsWithin (.error failure : Except Failure α) categories := by
  intro other failed
  cases failed
  exact within

theorem ofFault
    {fault : Fault}
    (listed : fault.cause.category ∈ categories) :
    FailsWithin (.error (.ofFault fault) : Except Failure α) categories :=
  ofWithin (Failure.within_ofFault listed)

theorem widen
    {outcome : Except Failure α}
    {wider : List Category}
    (stage : FailsWithin outcome categories)
    (included : categories ⊆ wider) :
    FailsWithin outcome wider :=
  fun failure failed fault same => included (stage failure failed fault same)

theorem bind
    {outcome : Except Failure α}
    {next : α → Except Failure β}
    (stage : FailsWithin outcome categories)
    (rest : ∀ value, FailsWithin (next value) categories) :
    FailsWithin (outcome >>= next) categories := by
  cases outcome with
  | error failure =>
      intro other failed
      cases failed
      exact stage failure rfl
  | ok value => exact rest value

theorem foldlM
    {step : β → α → Except Failure β}
    {values : List α}
    (each : ∀ value ∈ values, ∀ state, FailsWithin (step state value) categories)
    (state : β) :
    FailsWithin (values.foldlM step state) categories := by
  induction values generalizing state with
  | nil => exact ok state
  | cons value values hypothesis =>
      rw [List.forall_mem_cons] at each
      rw [List.foldlM_cons]
      exact (each.1 state).bind fun next => hypothesis each.2 next

end FailsWithin
end Outcome

open Outcome (FailsWithin)

attribute [local simp] Cause.category

/-! ## Sections -/

theorem Layout.failsWithin_ofSections (sections : List Section) :
    FailsWithin (ofSections sections) [.missingSection, .sectionCount] := by
  unfold ofSections
  dsimp only
  split
  · exact FailsWithin.ofFault (by decide)
  · split
    · exact FailsWithin.ofFault (by decide)
    · split
      · split
        · exact FailsWithin.ok _
        · exact FailsWithin.ok _
      · exact FailsWithin.ofFault (by simp)

theorem Layout.failsWithin_ofTokens (tokens : List Token) :
    FailsWithin (ofTokens tokens) [.misplacedToken, .missingSection, .sectionCount] := by
  unfold ofTokens
  split
  · exact FailsWithin.ofFault (by simp)
  · exact (failsWithin_ofSections _).widen (by simp)

/-! ## Constants -/

theorem failsWithin_codePoint (text : String) :
    FailsWithin (codePoint text) [] := by
  unfold codePoint
  split
  · exact FailsWithin.ok _
  · refine FailsWithin.ofWithin fun fault same => ?_
    cases same

namespace Constant

theorem failsWithin_nameOf (token : Token) :
    FailsWithin (nameOf token) [.malformedConstant] := by
  unfold nameOf
  split
  · exact FailsWithin.ok _
  · exact FailsWithin.ofFault (by simp)

theorem failsWithin_typeOf (token : Token) :
    FailsWithin (typeOf token) [.malformedConstant] := by
  unfold typeOf
  split
  · split
    · exact FailsWithin.ok _
    · exact FailsWithin.ofFault (by simp)
  · exact FailsWithin.ofFault (by simp)

theorem failsWithin_literalOf
    (name : String)
    (type : ConstantType)
    (token : Token) :
    FailsWithin (literalOf name type token) [.malformedConstant] := by
  unfold literalOf
  split
  · exact FailsWithin.ok _
  · exact FailsWithin.ok _
  all_goals exact FailsWithin.ofFault (by simp)

theorem failsWithin_value
    (name : String)
    (location : Location)
    (literal : Literal) :
    FailsWithin (literal.value name location) [.malformedConstant] := by
  unfold Literal.value
  split
  · exact FailsWithin.ok _
  · refine ((failsWithin_codePoint _).widen (by simp)).bind fun point => ?_
    split
    · exact FailsWithin.ofFault (by simp)
    · exact FailsWithin.ok _

theorem failsWithin_next
    (part : DeclarationPart)
    (last : Token)
    (tokens : List Token) :
    FailsWithin (next part last tokens) [.malformedConstant] := by
  unfold next
  split
  · rw [endsBefore, Failure.located]
    exact FailsWithin.ofFault (by simp)
  · exact FailsWithin.ok _

theorem failsWithin_requireLineEnd (token : Token) :
    FailsWithin (requireLineEnd token) [.malformedConstant] := by
  unfold requireLineEnd
  split
  · exact FailsWithin.ofFault (by simp)
  · exact FailsWithin.ok _

theorem failsWithin_declaration
    (first : Token)
    (tokens : List Token) :
    FailsWithin (declaration first tokens) [.malformedConstant] := by
  refine (failsWithin_nameOf _).bind fun name => ?_
  refine (failsWithin_next _ _ _).bind fun second => ?_
  refine (failsWithin_typeOf _).bind fun type => ?_
  refine (failsWithin_next _ _ _).bind fun third => ?_
  refine (failsWithin_literalOf _ _ _).bind fun literal => ?_
  refine (failsWithin_next _ _ _).bind fun fourth => ?_
  refine (failsWithin_requireLineEnd _).bind fun _ => ?_
  exact (failsWithin_value _ _ _).bind fun value => FailsWithin.ok _

theorem failsWithin_declarations
    (before : Array Constant)
    (tokens : List Token) :
    FailsWithin (declarations before tokens) [.malformedConstant] := by
  induction before, tokens using declarations_induction with
  | nil before => exact FailsWithin.ok _
  | cons before first tokens hypothesis =>
      intro failure failed
      rw [declarations_cons] at failed
      obtain refused | ⟨made, declared, failed⟩ := Outcome.bind_eq_error_iff.mp failed
      · exact failsWithin_declaration first tokens failure refused
      · exact hypothesis made declared failure failed

theorem failsWithin_compile (tokens : List Token) :
    FailsWithin (compile tokens) [.malformedConstant, .duplicateConstant] := by
  refine ((failsWithin_declarations #[] tokens).widen (by simp)).bind fun constants => ?_
  split
  · exact FailsWithin.ofFault (by simp)
  · exact FailsWithin.ok _

end Constant

/-! ## Symbols -/

namespace Symbols

theorem failsWithin_declarations
    (before : Table Location)
    (tokens : List Token) :
    FailsWithin (declarations before tokens) [.duplicateLabel] := by
  fun_induction declarations before tokens with
  | case1 => exact FailsWithin.ok _
  | case2 => exact FailsWithin.ofFault (by simp)
  | case3 | case4 => assumption

theorem failsWithin_validate
    (code : List Token)
    (constants : List Constant)
    (entryPoint : String) :
    FailsWithin (validate code constants entryPoint)
      [.duplicateLabel, .ambiguousSymbol, .missingEntryPoint] := by
  refine ((failsWithin_declarations {} code).widen (by simp)).bind fun labels => ?_
  dsimp only
  split
  · exact FailsWithin.ofFault (by simp)
  · split
    · exact FailsWithin.ok _
    · exact FailsWithin.ofFault (by simp)

end Symbols

/-! ## Code -/

namespace Encoder

/-- The categories of what can be wrong with an instruction whose symbols are bound. -/
def categories : List Category :=
  [.misplacedToken, .unknownOpcode, .tooFewOperands, .notARegister]

/-- Whether a token refers only to names that have addresses. -/
def IsBound
    (addresses : Table Int)
    (token : Token) : Prop :=
  ∀ name, token.content = .symbol name → addresses.contains name = true

theorem failsWithin_beginInstruction
    (name : String)
    (location : Location) :
    FailsWithin (beginInstruction name location) categories := by
  unfold beginInstruction
  split
  · exact FailsWithin.ofFault (by simp [categories])
  · dsimp only
    split
    · exact FailsWithin.ok _
    · exact FailsWithin.ok _

theorem failsWithin_operandWord
    {addresses : Table Int}
    {token : Token}
    (bound : IsBound addresses token)
    (pending : Pending) :
    FailsWithin (operandWord addresses pending token) categories := by
  unfold operandWord
  split
  · exact FailsWithin.ofFault (by simp [categories])
  · exact FailsWithin.ok _
  · next name content =>
      split
      · exact FailsWithin.ok _
      · next absent =>
          have found := bound name content
          rw [Table.contains, absent] at found
          cases found
  · exact FailsWithin.ofFault (by simp [categories])

theorem failsWithin_step
    {addresses : Table Int}
    {token : Token}
    (bound : IsBound addresses token)
    (encoder : Encoder) :
    FailsWithin (step addresses encoder token) categories := by
  unfold step
  split
  · split
    · exact FailsWithin.ok _
    · exact FailsWithin.ok _
    · exact (failsWithin_beginInstruction _ _).bind fun _ => FailsWithin.ok _
    · exact FailsWithin.ofFault (by simp [categories])
  · next pending kind later _ =>
      have operand : FailsWithin (readOperand addresses pending kind later token) categories := by
        refine (failsWithin_operandWord bound pending).bind fun word => ?_
        split
        · exact FailsWithin.ok _
        · exact FailsWithin.ofFault (by simp [categories])
      exact operand.bind fun _ => FailsWithin.ok _
  · split
    · exact FailsWithin.ok _
    all_goals exact FailsWithin.ofFault (by simp [categories])
  · split
    · exact FailsWithin.ofFault (by simp [categories])
    · exact FailsWithin.ok _
    · exact FailsWithin.ofFault (by simp [categories])

theorem failsWithin_finish
    (encoder : Encoder)
    (last : Location) :
    FailsWithin (encoder.finish last) categories := by
  unfold finish
  split
  · exact FailsWithin.ok _
  · exact FailsWithin.ok _
  all_goals exact FailsWithin.ofFault (by simp [categories])

theorem failsWithin_entriesOf
    {addresses : Table Int}
    {tokens : List Token}
    (bound : ∀ token ∈ tokens, IsBound addresses token) :
    FailsWithin (entriesOf addresses tokens) categories := by
  have encoded : FailsWithin (tokens.foldlM (step addresses) {}) categories :=
    FailsWithin.foldlM (fun token listed => failsWithin_step (bound token listed)) {}
  refine encoded.bind fun encoder => ?_
  split
  · exact FailsWithin.ok _
  · exact failsWithin_finish _ _

end Encoder

theorem Code.failsWithin_generate
    {tokens : List Token}
    (bound : ∀ token ∈ tokens, Encoder.IsBound (Address.table tokens) token) :
    FailsWithin (generate tokens) Encoder.categories :=
  (Encoder.failsWithin_entriesOf bound).bind fun _ => FailsWithin.ok _

end WordAsm
