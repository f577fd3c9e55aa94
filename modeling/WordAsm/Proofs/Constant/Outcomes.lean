import Mathlib.Data.List.Nodup
import WordAsm.Proofs.Assembly.Failures
import WordAsm.Proofs.Failure.Categories

/-!
# What becomes of a data section

A data section that is a row of declarations compiles, unless a name is declared twice. One that is
no such row is malformed, wherever the row is left, even if names are repeated before. The only
other way to fail is a number beyond the decimal limit that stands where no number may stand.
-/

namespace WordAsm

namespace Constant

/-! ## Names that are taken -/

/-- The first of some constants whose name is taken, and the constant that took it. -/
def FirstRepeat
    (constants : List Constant)
    (again earlier : Constant) : Prop :=
  ∃ front back, constants = front ++ again :: back ∧ (front.map (·.name)).Nodup ∧
    earlier ∈ front ∧ earlier.name = again.name

/-- The first of some constants whose name is taken by one before it or by an earlier constant. -/
def FirstRepeatBehind
    (before constants : List Constant)
    (again earlier : Constant) : Prop :=
  ∃ front back, constants = front ++ again :: back ∧ ((before ++ front).map (·.name)).Nodup ∧
    earlier ∈ before ++ front ∧ earlier.name = again.name

/-- If the name of a constant is taken, no later one is the first to repeat a name. -/
theorem firstRepeatBehind_cons_of_taken
    {before : List Constant}
    (distinct : (before.map (·.name)).Nodup)
    {constant first : Constant}
    (taken : (table before).get? constant.name = some first)
    (constants : List Constant)
    (again earlier : Constant) :
    FirstRepeatBehind before (constant :: constants) again earlier ↔
      constant = again ∧ first = earlier := by
  obtain ⟨known, named⟩ := Symbols.mem_of_constantTable_get? taken
  constructor
  · rintro ⟨front, back, constants_eq, fresh, listed, same⟩
    cases front with
    | nil =>
        cases constants_eq
        rw [List.append_nil] at listed
        have held := Symbols.constantTable_get?_of_mem distinct listed
        rw [same, taken] at held
        exact ⟨rfl, Option.some.inj held⟩
    | cons other front =>
        cases constants_eq
        rw [List.map_append, List.map_cons, List.nodup_append] at fresh
        exact absurd named (fresh.2.2 _ (List.mem_map_of_mem known) _ List.mem_cons_self)
  · rintro ⟨rfl, rfl⟩
    exact ⟨[], constants, rfl, by simpa using distinct, by simpa using known, named⟩

/-- A constant whose name is free is one of those whose names are taken from then on. -/
theorem firstRepeatBehind_cons_of_free
    {before : List Constant}
    {constant : Constant}
    (free : constant.name ∉ before.map (·.name))
    (constants : List Constant)
    (again earlier : Constant) :
    FirstRepeatBehind before (constant :: constants) again earlier ↔
      FirstRepeatBehind (before ++ [constant]) constants again earlier := by
  constructor
  · rintro ⟨front, back, constants_eq, fresh, listed, same⟩
    cases front with
    | nil =>
        cases constants_eq
        rw [List.append_nil] at listed
        exact absurd (same ▸ List.mem_map_of_mem listed) free
    | cons other front =>
        cases constants_eq
        refine ⟨front, back, rfl, ?_, ?_, same⟩ <;>
          rwa [List.append_assoc, List.singleton_append]
  · rintro ⟨front, back, rfl, fresh, listed, same⟩
    rw [List.append_assoc, List.singleton_append] at fresh listed
    exact ⟨constant :: front, back, rfl, fresh, listed, same⟩

theorem firstRepeat_table_eq_some_iff
    {before : List Constant}
    (distinct : (before.map (·.name)).Nodup)
    (constants : List Constant)
    (again earlier : Constant) :
    firstRepeat (table before) constants = some (again, earlier) ↔
      FirstRepeatBehind before constants again earlier := by
  induction constants generalizing before with
  | nil => simp [firstRepeat, FirstRepeatBehind]
  | cons constant constants hypothesis =>
      rw [firstRepeat]
      cases taken : (table before).get? constant.name with
      | some first =>
          rw [firstRepeatBehind_cons_of_taken distinct taken]
          dsimp only
          rw [Option.some_inj, Prod.mk.injEq]
      | none =>
          have free := (Symbols.constantTable_get?_eq_none_iff ..).mp taken
          have longer : ((before ++ [constant]).map (·.name)).Nodup := by
            rw [List.map_append, List.map_singleton, ← List.concat_eq_append]
            exact List.Nodup.concat free distinct
          have table_eq : (table before).insert constant.name constant =
              table (before ++ [constant]) := by
            simp [table, Table.ofList]
          dsimp only
          rw [table_eq, hypothesis longer, firstRepeatBehind_cons_of_free free]

theorem firstRepeat_eq_some_iff
    (constants : List Constant)
    (again earlier : Constant) :
    firstRepeat {} constants = some (again, earlier) ↔ FirstRepeat constants again earlier :=
  @firstRepeat_table_eq_some_iff [] List.nodup_nil constants again earlier

/-- Some name is taken exactly when the names are not all different. -/
theorem exists_firstRepeat_iff (constants : List Constant) :
    (∃ again earlier, FirstRepeat constants again earlier) ↔
      ¬ (constants.map (·.name)).Nodup := by
  have distinct : firstRepeat {} constants = none ↔ (constants.map (·.name)).Nodup := by
    rw [firstRepeat_eq_none_iff]
    exact ⟨And.right, fun distinct => ⟨fun _ _ => rfl, distinct⟩⟩
  simp only [← distinct, ← firstRepeat_eq_some_iff, ← Option.isSome_iff_ne_none,
    Option.isSome_iff_exists, Prod.exists]

/-! ## Outcomes -/

/-- A repeated name is reported at the first constant that repeats one, with the place of the
constant that has it, once all tokens are declarations. -/
theorem compile_eq_duplicate_iff
    (tokens : List Token)
    (fault : Fault) :
    (compile tokens = .error (.program fault) ∧ fault.cause.category = .duplicateConstant) ↔
      ∃ constants again earlier, Declarations tokens constants ∧
        FirstRepeat constants again earlier ∧
        fault = {
          cause := .duplicateConstant again.name (some earlier.location)
          location := some again.location } := by
  rw [compile, Outcome.bind_eq_error_iff]
  constructor
  · rintro ⟨failed | ⟨constants, read, failed⟩, duplicate⟩
    · have within := failsWithin_declarations #[] tokens
      exact absurd duplicate (within.category_ne failed (by decide))
    · obtain ⟨later, declared, rfl⟩ := exists_declarations_of_ok read
      split at failed
      · next again earlier repeated =>
          cases failed
          exact ⟨_, again, earlier, declared, (firstRepeat_eq_some_iff ..).mp repeated, rfl⟩
      · cases failed
  · rintro ⟨constants, again, earlier, declared, repeated, rfl⟩
    refine ⟨.inr ⟨constants, declared.declarations_eq #[], ?_⟩, rfl⟩
    rw [(firstRepeat_eq_some_iff ..).mpr repeated]
    rfl

/-- What is no row of declarations is malformed, unless a number gets in the way. -/
theorem malformed_of_compile
    {tokens : List Token}
    {failure : Failure}
    (single : Token.HoldSingleCharacters tokens)
    (undeclared : ∀ constants, ¬ Declarations tokens constants)
    (failed : compile tokens = .error failure) :
    (∃ fault, failure = .program fault ∧ fault.cause.category = .malformedConstant) ∨
      failure = .longNumber := by
  obtain ⟨fault, rfl, _⟩ | ⟨long, _⟩ := (reportedUnless_compile single).explained failure failed
  · refine .inl ⟨fault, rfl, ?_⟩
    have category := failsWithin_compile tokens _ failed fault rfl
    obtain malformed | duplicate := List.mem_pair.mp category
    · exact malformed
    · obtain ⟨constants, _, _, declared, _⟩ :=
        (compile_eq_duplicate_iff ..).mp ⟨failed, duplicate⟩
      exact absurd declared (undeclared constants)
  · exact .inr long

/-- A data section whose characters are single ones compiles exactly when it is a row of
declarations of different names, and then into the constants that they declare. A row that repeats
a name is reported as such, at the first declaration that does. Everything else is malformed, except
that a number beyond the limit cannot be named where a declaration cannot go on with it. -/
theorem compile_outcomes
    {tokens : List Token}
    (single : Token.HoldSingleCharacters tokens) :
    (∀ constants, compile tokens = .ok constants ↔
      Declarations tokens constants ∧ (constants.map (·.name)).Nodup) ∧
    (∀ constants, compile tokens = .ok constants →
      ∀ constant ∈ constants, 0 ≤ constant.value ∧ constant.value ≤ 32767) ∧
    ((∃ fault, compile tokens = .error (.program fault) ∧
        fault.cause.category = .duplicateConstant) ↔
      ∃ constants, Declarations tokens constants ∧ ¬ (constants.map (·.name)).Nodup) ∧
    (∀ fault, compile tokens = .error (.program fault) →
      fault.cause.category = .duplicateConstant →
      ∃ constants again earlier, Declarations tokens constants ∧
        FirstRepeat constants again earlier ∧
        fault = {
          cause := .duplicateConstant again.name (some earlier.location)
          location := some again.location }) ∧
    (∀ failure, compile tokens = .error failure →
      (∀ constants, ¬ Declarations tokens constants) →
      (∃ fault, failure = .program fault ∧ fault.cause.category = .malformedConstant) ∨
        failure = .longNumber) ∧
    (compile tokens = .error .longNumber ↔
      ∃ front constants start token back value, tokens = front ++ (start ++ token :: back) ∧
        Declarations front constants ∧ Unfinished start ∧ token.content = .number value ∧
        4300 < (Nat.toDigits 10 value.natAbs).length) := by
  refine ⟨compile_eq_ok_iff tokens, ?_, ?_, ?_, ?_, ?_⟩
  · intro constants compiled constant listed
    obtain ⟨declared, _⟩ := (compile_eq_ok_iff ..).mp compiled
    have bounds := declared.value_bounds constant listed
    omega
  · simp only [compile_eq_duplicate_iff, ← exists_firstRepeat_iff]
    constructor
    · rintro ⟨_, constants, again, earlier, declared, repeated, _⟩
      exact ⟨constants, declared, again, earlier, repeated⟩
    · rintro ⟨constants, declared, again, earlier, repeated⟩
      exact ⟨_, constants, again, earlier, declared, repeated, rfl⟩
  · intro fault failed duplicate
    exact (compile_eq_duplicate_iff ..).mp ⟨failed, duplicate⟩
  · intro failure failed undeclared
    exact malformed_of_compile single undeclared failed
  · have stage := reportedUnless_compile single
    constructor
    · intro failed
      obtain report | ⟨_, front, constants, start, token, back, tokens_eq, declared, unfinished,
        unwritable⟩ := stage.explained _ failed
      · exact absurd report Failure.not_isReport_longNumber
      · obtain ⟨value, content, long⟩ := (Token.Content.isWritable_eq_false_iff _).mp unwritable
        exact ⟨front, constants, start, token, back, value, tokens_eq, declared, unfinished,
          content, long⟩
    · rintro ⟨front, constants, start, token, back, value, tokens_eq, declared, unfinished,
        content, long⟩
      exact stage.unwritten ⟨front, constants, start, token, back, tokens_eq, declared, unfinished,
        (Token.Content.isWritable_eq_false_iff _).mpr ⟨value, content, long⟩⟩

/-- A negative number and a character, a name that is declared three times, and the same row with
another name behind it. -/
theorem compile_outcomes_of_repeated_name :
    let declare (name : String) (type : String) (literal : Token.Content) (line : Int) :
        List Token :=
      [⟨.symbol name, { line, column := 1 }⟩, ⟨.typeWord type, { line, column := 3 }⟩,
        ⟨literal, { line, column := 7 }⟩, ⟨.lineEnd, { line, column := 10 }⟩]
    let distinct := declare "a" "NUM" (.number (-1)) 2 ++ declare "b" "CHR" (.character "*") 3
    let repeated := distinct ++ declare "b" "NUM" (.number 5) 4 ++ declare "a" "NUM" (.number 6) 5
    Declarations distinct [⟨"a", 32767, 2, "<input>"⟩, ⟨"b", 42, 3, "<input>"⟩] ∧
      (∃ constants again earlier, Declarations repeated constants ∧
        FirstRepeat constants again earlier ∧ again.name = "b" ∧ again.line = 4 ∧
        earlier.line = 3) ∧
      ∃ fault, compile (repeated ++ [⟨.symbol "c", { line := 6 }⟩]) = .error (.program fault) ∧
        fault.cause.category = .malformedConstant := by
  intro declare distinct repeated
  have single (tokens : List Token)
      (checked : tokens.all (fun token =>
        token.content.tag != "CHAR" || token.content = .character "*") = true) :
      Token.HoldSingleCharacters tokens := by
    intro token listed text content
    have here := List.all_eq_true.mp checked token listed
    rw [content] at here
    obtain rfl : text = "*" := by simpa [Token.Content.tag] using here
    exact ⟨'*', rfl⟩
  have compiled : compile distinct =
      .ok [⟨"a", 32767, 2, "<input>"⟩, ⟨"b", 42, 3, "<input>"⟩] := by
    decide +kernel
  have duplicate : compile repeated = .error (.program {
      cause := .duplicateConstant "b" (some { line := 3 })
      location := some { line := 4 } }) := by
    decide +kernel
  have unfinished : compile (repeated ++ [⟨.symbol "c", { line := 6 }⟩]) = .error (.program {
      cause := .dataEnds .typeWord
      location := some { line := 6 } }) := by
    decide +kernel
  refine ⟨(((compile_outcomes (single _ (by decide))).1 _).mp compiled).1, ?_, _, unfinished, rfl⟩
  obtain ⟨constants, again, earlier, declared, first, fault_eq⟩ :=
    (compile_outcomes (single _ (by decide))).2.2.2.1 _ duplicate rfl
  cases again
  cases earlier
  cases fault_eq
  exact ⟨constants, _, _, declared, first, rfl, rfl, rfl⟩

end Constant
end WordAsm
