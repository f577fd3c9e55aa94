import Mathlib.Data.List.Forall2

/-!
# Outcomes of stages

A stage either yields a result or fails. Stages in a row yield a result exactly when each of
them does, and so does one stage applied to every element of a list.
-/

namespace WordAsm
namespace Outcome

variable {ε α β : Type}

/-- A stage that uses the result of another one succeeds exactly when both do. -/
theorem bind_eq_ok_iff
    {outcome : Except ε α}
    {next : α → Except ε β}
    {result : β} :
    (outcome >>= next) = .ok result ↔ ∃ value, outcome = .ok value ∧ next value = .ok result := by
  constructor
  · intro succeeded
    cases outcome with
    | error failure => cases succeeded
    | ok value => exact ⟨value, rfl, succeeded⟩
  · rintro ⟨value, rfl, succeeded⟩
    exact succeeded

/-- Of two stages in a row the first fails, or the second with the result of the first. -/
theorem bind_eq_error_iff
    {outcome : Except ε α}
    {next : α → Except ε β}
    {failure : ε} :
    (outcome >>= next) = .error failure ↔
      outcome = .error failure ∨ ∃ value, outcome = .ok value ∧ next value = .error failure := by
  cases outcome with
  | error other =>
      constructor
      · intro failed
        cases failed
        exact .inl rfl
      · rintro (failed | ⟨value, succeeded, _⟩)
        · cases failed
          rfl
        · cases succeeded
  | ok value =>
      constructor
      · intro failed
        exact .inr ⟨value, rfl, failed⟩
      · rintro (failed | ⟨other, same, failed⟩)
        · cases failed
        · cases same
          exact failed

theorem map_eq_ok_iff
    {outcome : Except ε α}
    {function : α → β}
    {result : β} :
    outcome.map function = .ok result ↔ ∃ value, outcome = .ok value ∧ function value = result := by
  constructor
  · intro succeeded
    cases outcome with
    | error failure => cases succeeded
    | ok value =>
        cases succeeded
        exact ⟨value, rfl, rfl⟩
  · rintro ⟨value, rfl, rfl⟩
    rfl

theorem map_eq_error_iff
    {outcome : Except ε α}
    {function : α → β}
    {failure : ε} :
    outcome.map function = .error failure ↔ outcome = .error failure := by
  cases outcome <;> simp [Except.map]

/-- A stage succeeds on a whole list exactly when it does on every element. -/
theorem mapM_eq_ok_iff
    {stage : α → Except ε β}
    {values : List α}
    {results : List β} :
    values.mapM stage = .ok results ↔
      List.Forall₂ (fun value result => stage value = .ok result) values results := by
  induction values generalizing results with
  | nil =>
      rw [List.mapM_nil, List.forall₂_nil_left_iff]
      exact ⟨fun succeeded => by cases succeeded; rfl, fun empty => empty ▸ rfl⟩
  | cons value values hypothesis =>
      rw [List.mapM_cons, bind_eq_ok_iff, List.forall₂_cons_left_iff]
      constructor
      · rintro ⟨first, here, succeeded⟩
        obtain ⟨rest, later, finished⟩ := bind_eq_ok_iff.mp succeeded
        cases finished
        exact ⟨first, rest, here, hypothesis.mp later, rfl⟩
      · rintro ⟨first, rest, here, later, rfl⟩
        exact ⟨first, here, bind_eq_ok_iff.mpr ⟨rest, hypothesis.mpr later, rfl⟩⟩

/-- A stage fails on a list with the first element it fails on. -/
theorem mapM_eq_error_iff
    {stage : α → Except ε β}
    {values : List α}
    {failure : ε} :
    values.mapM stage = .error failure ↔
      ∃ front value back results, values = front ++ value :: back ∧
        front.mapM stage = .ok results ∧ stage value = .error failure := by
  constructor
  · intro failed
    induction values with
    | nil => cases failed
    | cons value values hypothesis =>
        rw [List.mapM_cons] at failed
        obtain failed | ⟨first, here, failed⟩ := bind_eq_error_iff.mp failed
        · exact ⟨[], value, values, [], rfl, rfl, failed⟩
        · obtain failed | ⟨_, _, failed⟩ := bind_eq_error_iff.mp failed
          · obtain ⟨front, last, back, results, rfl, succeeded, failed⟩ := hypothesis failed
            refine ⟨value :: front, last, back, first :: results, rfl, ?_, failed⟩
            rw [List.mapM_cons, here, succeeded]
            rfl
          · cases failed
  · rintro ⟨front, value, back, results, rfl, succeeded, failed⟩
    rw [List.mapM_append, succeeded, List.mapM_cons, failed]
    rfl

/-- Two relations between elements of lists, one behind the other. -/
theorem forall₂_trans
    {γ : Type}
    {first : α → β → Prop}
    {second : β → γ → Prop}
    {both : α → γ → Prop}
    {sources : List α}
    {middles : List β}
    {targets : List γ}
    (before : List.Forall₂ first sources middles)
    (behind : List.Forall₂ second middles targets)
    (compose : ∀ source middle target, first source middle → second middle target →
      both source target) :
    List.Forall₂ both sources targets := by
  induction before generalizing targets with
  | nil =>
      cases behind
      exact .nil
  | cons here _ hypothesis =>
      cases behind with
      | cons there later => exact .cons (compose _ _ _ here there) (hypothesis later)

/-- A result in the middle of a list belongs to an element that divides its list alike. -/
theorem forall₂_split
    {relation : α → β → Prop}
    {sources : List α}
    {front back : List β}
    {target : β}
    (related : List.Forall₂ relation sources (front ++ target :: back)) :
    ∃ before source after, sources = before ++ source :: after ∧
      List.Forall₂ relation before front ∧ relation source target := by
  have before := List.forall₂_take_append _ _ _ related
  have behind := List.forall₂_drop_append _ _ _ related
  obtain ⟨source, after, here, _, drop_eq⟩ := List.forall₂_cons_right_iff.mp behind
  refine ⟨_, source, after, ?_, before, here⟩
  rw [← drop_eq, List.take_append_drop]

/-- Every element of a list belongs to a result. -/
theorem exists_of_forall₂_of_mem
    {relation : α → β → Prop}
    {sources : List α}
    {targets : List β}
    {source : α}
    (related : List.Forall₂ relation sources targets)
    (listed : source ∈ sources) :
    ∃ target ∈ targets, relation source target := by
  obtain ⟨front, back, rfl⟩ := List.append_of_mem listed
  obtain ⟨before, target, after, rfl, _, here⟩ := forall₂_split related.flip
  exact ⟨target, List.mem_append_right _ List.mem_cons_self, here⟩

end Outcome
end WordAsm
