import WordAsm.Failure
import WordAsm.Proofs.Outcome

/-!
# Reports of failures

A fault of the program is reported as an error of the assembler. The one thing that can prevent
the report is a number in its message that is beyond the decimal limit. For a stage that fails in
no other way it is enough to say when such a number gets in the way, and for stages in a row this
follows from the single ones.
-/

namespace WordAsm

/-- The words of the machine are far below the limit. -/
theorem Text.isWritable_of_word
    {n : Int}
    (lower : 0 ≤ n)
    (upper : n < 65536) :
    isWritable n = true := by
  rw [isWritable, decide_eq_true_iff]
  calc (Nat.toDigits 10 n.natAbs).length
      ≤ 5 := (Nat.length_toDigits_le_iff (by decide) (by decide)).mpr (by omega)
    _ ≤ decimalLimit := by decide

/-- The categories of all faults belong to the assembler. -/
theorem Cause.assembler_mem_ancestors (cause : Cause) :
    Category.assembler ∈ cause.category.ancestors := by
  have below (category : Category) (other : category ≠ .assembler) :
      .assembler ∈ category.ancestors := by
    cases category with
    | assembler => exact absurd rfl other
    | _ => decide
  apply below
  intro same
  cases cause <;> cases same

/-- Only numbers can be beyond the limit. -/
theorem Token.Content.exists_number_of_isWritable
    {content : Content}
    (unwritable : content.isWritable = false) :
    ∃ value, content = .number value ∧ Text.isWritable value = false := by
  cases content with
  | number value => exact ⟨value, rfl, unwritable⟩
  | _ => cases unwritable

theorem Text.isWritable_iff (n : Int) :
    isWritable n = true ↔ (Nat.toDigits 10 n.natAbs).length ≤ 4300 := by
  rw [isWritable, decide_eq_true_iff]
  rfl

/-- Only numbers of more digits than the limit cannot be written. -/
theorem Token.Content.isWritable_eq_false_iff (content : Content) :
    content.isWritable = false ↔
      ∃ value, content = .number value ∧ 4300 < (Nat.toDigits 10 value.natAbs).length := by
  have beyond (value : Int) : Text.isWritable value = false ↔
      4300 < (Nat.toDigits 10 value.natAbs).length := by
    rw [← Bool.not_eq_true, Text.isWritable_iff, Nat.not_le]
  constructor
  · intro unwritable
    obtain ⟨value, rfl, held⟩ := content.exists_number_of_isWritable unwritable
    exact ⟨value, rfl, (beyond value).mp held⟩
  · rintro ⟨value, rfl, long⟩
    exact (beyond value).mpr long

namespace Failure

/-- Whether a failure is reported as an error of the assembler. -/
def IsReport (failure : Failure) : Prop :=
  ∃ fault, failure = .program fault ∧ Category.assembler ∈ fault.cause.category.ancestors

theorem ofFault_of_writable
    {fault : Fault}
    (writable : fault.cause.isWritable = true) :
    ofFault fault = .program fault :=
  if_pos writable

/-- A fault whose message can be written is reported. -/
theorem isReport_ofFault
    {fault : Fault}
    (writable : fault.cause.isWritable = true) :
    (ofFault fault).IsReport := by
  rw [ofFault_of_writable writable]
  exact ⟨fault, rfl, fault.cause.assembler_mem_ancestors⟩

/-- A fault whose message needs a number beyond the limit is not reported. -/
theorem ofFault_of_unwritable
    {fault : Fault}
    (unwritable : fault.cause.isWritable = false) :
    ofFault fault = .longNumber := by
  rw [ofFault, unwritable]
  rfl

theorem not_isReport_longNumber : ¬ longNumber.IsReport := by
  rintro ⟨fault, same, _⟩
  cases same

end Failure

namespace Outcome

variable {α β : Type}

/-- A stage whose failures are reported, except that a number is beyond the limit under a
condition. -/
structure ReportedUnless
    (outcome : Except Failure α)
    (unwritable : Prop) : Prop where
  explained : ∀ failure, outcome = .error failure →
    failure.IsReport ∨ failure = .longNumber ∧ unwritable
  unwritten : unwritable → outcome = .error .longNumber

namespace ReportedUnless

/-- A stage without such numbers reports every failure. -/
theorem isReport
    {outcome : Except Failure α}
    {failure : Failure}
    (stage : ReportedUnless outcome False)
    (failed : outcome = .error failure) :
    failure.IsReport :=
  (stage.explained failure failed).resolve_right And.right

theorem ok (result : α) :
    ReportedUnless (.ok result) False where
  explained failure failed := by cases failed
  unwritten := False.elim

theorem ofReport
    {failure : Failure}
    (report : failure.IsReport) :
    ReportedUnless (.error failure : Except Failure α) False where
  explained other failed := by
    cases failed
    exact .inl report
  unwritten := False.elim

/-- The report of a fault is prevented exactly by a number in its message. -/
theorem ofFault (fault : Fault) :
    ReportedUnless (.error (.ofFault fault) : Except Failure α)
      (fault.cause.isWritable = false) where
  explained failure failed := by
    cases failed
    cases held : fault.cause.isWritable with
    | true => exact .inl (Failure.isReport_ofFault held)
    | false => exact .inr ⟨Failure.ofFault_of_unwritable held, rfl⟩
  unwritten unwritable := by rw [Failure.ofFault_of_unwritable unwritable]

theorem of_iff
    {outcome : Except Failure α}
    {unwritable condition : Prop}
    (stage : ReportedUnless outcome unwritable)
    (same : unwritable ↔ condition) :
    ReportedUnless outcome condition :=
  propext same ▸ stage

/-- A fault without numbers is reported. -/
theorem ofWritable
    {fault : Fault}
    (writable : fault.cause.isWritable = true) :
    ReportedUnless (.error (.ofFault fault) : Except Failure α) False :=
  ofReport (Failure.isReport_ofFault writable)

/-- Where every failure is reported, no content that can be written gets in the way. -/
theorem of_isWritable
    {outcome : Except Failure α}
    {content : Token.Content}
    (stage : ReportedUnless outcome False)
    (writable : content.isWritable = true) :
    ReportedUnless outcome (content.isWritable = false) :=
  stage.of_iff (by simp [writable])

/-- For two stages in a row the number gets in the way of the first, or of the second with the
result of the first. -/
theorem bind
    {outcome : Except Failure α}
    {next : α → Except Failure β}
    {here : Prop}
    {later : α → Prop}
    (stage : ReportedUnless outcome here)
    (rest : ∀ value, outcome = .ok value → ReportedUnless (next value) (later value)) :
    ReportedUnless (outcome >>= next) (here ∨ ∃ value, outcome = .ok value ∧ later value) := by
  cases outcome with
  | error failure =>
      refine ⟨fun other failed => ?_, ?_⟩
      · cases failed
        exact (stage.explained failure rfl).imp_right (And.imp_right .inl)
      · rintro (held | ⟨_, found, _⟩)
        · rw [stage.unwritten held]
          rfl
        · cases found
  | ok value =>
      have following := rest value rfl
      refine ⟨fun failure failed => ?_, ?_⟩
      · exact (following.explained failure failed).imp_right
          (And.imp_right fun held => .inr ⟨value, rfl, held⟩)
      · rintro (held | ⟨_, found, held⟩)
        · cases stage.unwritten held
        · cases found
          exact following.unwritten held

theorem bindReported
    {outcome : Except Failure α}
    {next : α → Except Failure β}
    {later : α → Prop}
    (stage : ReportedUnless outcome False)
    (rest : ∀ value, outcome = .ok value → ReportedUnless (next value) (later value)) :
    ReportedUnless (outcome >>= next) (∃ value, outcome = .ok value ∧ later value) :=
  (stage.bind rest).of_iff (by simp)

theorem andThen
    {outcome : Except Failure α}
    {next : α → Except Failure β}
    {unwritable : Prop}
    (stage : ReportedUnless outcome unwritable)
    (rest : ∀ value, ReportedUnless (next value) False) :
    ReportedUnless (outcome >>= next) unwritable :=
  (stage.bind fun value _ => rest value).of_iff (by simp)

theorem map
    {outcome : Except Failure α}
    {unwritable : Prop}
    (stage : ReportedUnless outcome unwritable)
    (function : α → β) :
    ReportedUnless (outcome.map function) unwritable := by
  have bound : outcome.map function = outcome >>= fun value => .ok (function value) := by
    cases outcome <;> rfl
  rw [bound]
  exact stage.andThen fun _ => ok _

/-- A stage that reports every failure does so on a whole list. -/
theorem mapM
    {stage : α → Except Failure β}
    {values : List α}
    (each : ∀ value ∈ values, ReportedUnless (stage value) False) :
    ReportedUnless (values.mapM stage) False := by
  induction values with
  | nil => exact ok []
  | cons value values hypothesis =>
      rw [List.forall_mem_cons] at each
      rw [List.mapM_cons]
      exact each.1.andThen fun _ => (hypothesis each.2).andThen fun _ => ok _

end ReportedUnless
end Outcome
end WordAsm
