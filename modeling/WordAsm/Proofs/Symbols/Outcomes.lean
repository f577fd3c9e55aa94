import WordAsm.Proofs.Symbols

/-!
# Why names are refused

The names of a program are checked in three steps. A label that is declared again is reported at
the first token that does so, whatever else is wrong. If all labels differ, the first label that is
also a constant is reported, and only then the lack of an entry point. Where a constant is declared
more than once, the last one counts.
-/

namespace WordAsm

/-- The last of some constants that has a name. -/
def Constant.IsLast
    (constant : Constant)
    (constants : List Constant)
    (name : String) : Prop :=
  ∃ before after, constants = before ++ constant :: after ∧ constant.name = name ∧
    ∀ other ∈ after, other.name ≠ name

/-- The last constant with a name stands under it. -/
theorem Constant.table_get?_eq_some_iff
    (constants : List Constant)
    (name : String)
    (constant : Constant) :
    (table constants).get? name = some constant ↔ constant.IsLast constants name := by
  constructor
  · intro found
    -- A table is looked up from its last entry on, so both parts come out reversed.
    rw [table, Table.get?_ofList, List.lookup_eq_some_iff] at found
    obtain ⟨after, before, entries_eq, absent⟩ := found
    rw [← List.map_reverse, List.map_eq_append_iff] at entries_eq
    obtain ⟨later, others, reversed_eq, rfl, others_eq⟩ := entries_eq
    obtain ⟨last, earlier, rfl, last_eq, rfl⟩ := List.map_eq_cons_iff.mp others_eq
    cases last_eq
    refine ⟨earlier.reverse, later.reverse, ?_, rfl, ?_⟩
    · rw [← List.reverse_reverse constants, reversed_eq]
      simp
    · intro other listed same
      have different := absent _ (List.mem_map_of_mem (List.mem_reverse.mp listed))
      exact bne_iff_ne.mp different same.symm
  · rintro ⟨before, after, rfl, rfl, absent⟩
    rw [table, List.map_append, List.map_cons]
    apply Table.get?_ofList_append
    intro entry listed
    obtain ⟨other, among, rfl⟩ := List.mem_map.mp listed
    exact absent other among

namespace Symbols

/-! ## Labels that are declared again -/

/-- The first token that declares a label again, and the one that declared it. -/
def FirstRepeat
    (code : List Token)
    (name : String)
    (again first : Token) : Prop :=
  ∃ front back, code = front ++ again :: back ∧ (labelsOf front).Nodup ∧
    again.content = .label name ∧ first ∈ front ∧ first.content = .label name

theorem declaration?_eq_some_iff
    (token : Token)
    (name : String)
    (location : Location) :
    declaration? token = some (name, location) ↔
      token.content = .label name ∧ token.location = location := by
  rw [declaration?]
  cases token.content <;> simp [Token.Content.label?]

/-- Labels are collected token by token. -/
theorem declarations_cons
    (before : Table Location)
    (token : Token)
    (rest : List Token) :
    declarations before (token :: rest) =
      declarations before [token] >>= fun collected => declarations collected rest := by
  rw [declarations, declarations]
  split
  · split <;> rfl
  · rfl

theorem declarations_append
    (before : Table Location)
    (front rest : List Token) :
    declarations before (front ++ rest) =
      declarations before front >>= fun collected => declarations collected rest := by
  induction front generalizing before with
  | nil => rfl
  | cons token front hypothesis =>
      rw [List.cons_append, declarations_cons, declarations_cons before token front]
      cases declarations before [token] with
      | error failure => rfl
      | ok collected => exact hypothesis collected

/-- A single token is refused exactly if it declares a label that is taken. -/
theorem declarations_singleton_eq_error_iff
    (before : Table Location)
    (token : Token)
    (failure : Failure) :
    declarations before [token] = .error failure ↔
      ∃ name first, token.content = .label name ∧ before.get? name = some first ∧
        failure = .program {
          cause := .duplicateLabel name (some first)
          location := some token.location } := by
  rw [declarations]
  split
  · next name content =>
      split
      · next first taken =>
          constructor
          · intro failed
            cases failed
            exact ⟨name, first, content, taken, rfl⟩
          · rintro ⟨other, place, same, found, rfl⟩
            rw [content] at same
            cases same
            rw [taken] at found
            cases found
            rfl
      · next free =>
          constructor
          · intro failed
            cases failed
          · rintro ⟨other, place, same, found, _⟩
            rw [content] at same
            cases same
            rw [free] at found
            cases found
  · next plain =>
      constructor
      · intro failed
        cases failed
      · rintro ⟨name, _, content, _⟩
        exact absurd content (plain name)

/-- Collecting labels fails at the first token that is refused behind those before it. -/
theorem declarations_eq_error_iff
    (before : Table Location)
    (tokens : List Token)
    (failure : Failure) :
    declarations before tokens = .error failure ↔
      ∃ front again back collected, tokens = front ++ again :: back ∧
        declarations before front = .ok collected ∧
        declarations collected [again] = .error failure := by
  constructor
  · intro failed
    induction tokens generalizing before with
    | nil => cases failed
    | cons token tokens hypothesis =>
        rw [declarations_cons, Outcome.bind_eq_error_iff] at failed
        obtain failed | ⟨collected, read, failed⟩ := failed
        · exact ⟨[], token, tokens, before, rfl, rfl, failed⟩
        · obtain ⟨front, again, back, later, rfl, readFront, refused⟩ := hypothesis collected failed
          refine ⟨token :: front, again, back, later, rfl, ?_, refused⟩
          rw [declarations_cons, read]
          exact readFront
  · rintro ⟨front, again, back, collected, rfl, read, refused⟩
    rw [declarations_append, read]
    change declarations collected (again :: back) = _
    rw [declarations_cons, refused]
    rfl

theorem declarations_empty_eq_ok_iff
    (code : List Token)
    (collected : Table Location) :
    declarations {} code = .ok collected ↔
      (labelsOf code).Nodup ∧ collected = ⟨code.filterMap declaration?⟩ := by
  rw [declarations_eq_ok_iff]
  constructor
  · rintro ⟨_, distinct, entries_eq⟩
    exact ⟨distinct, congrArg Table.mk entries_eq⟩
  · rintro ⟨distinct, rfl⟩
    exact ⟨fun _ _ => rfl, distinct, rfl⟩

/-- The place of the only declaration of a label is what is collected under its name. -/
theorem get?_eq_some_iff_exists_token
    {front : List Token}
    (distinct : (labelsOf front).Nodup)
    (name : String)
    (location : Location) :
    (Table.mk (front.filterMap declaration?)).get? name = some location ↔
      ∃ first ∈ front, first.content = .label name ∧ first.location = location := by
  have names : (Table.mk (front.filterMap declaration?)).names.Nodup := by
    rwa [Table.names, map_declaration?]
  rw [Table.get?_eq_some_iff_mem names, List.mem_filterMap]
  simp only [declaration?_eq_some_iff]

/-- The labels of a program fail to be collected exactly if one is declared again. -/
theorem declarations_eq_error_iff_firstRepeat
    (code : List Token)
    (failure : Failure) :
    declarations {} code = .error failure ↔
      ∃ name again first, FirstRepeat code name again first ∧
        failure = .program {
          cause := .duplicateLabel name (some first.location)
          location := some again.location } := by
  rw [declarations_eq_error_iff]
  constructor
  · rintro ⟨front, again, back, collected, rfl, read, refused⟩
    obtain ⟨name, place, content, taken, rfl⟩ :=
      (declarations_singleton_eq_error_iff ..).mp refused
    obtain ⟨distinct, rfl⟩ := (declarations_empty_eq_ok_iff ..).mp read
    obtain ⟨first, listed, label, rfl⟩ := (get?_eq_some_iff_exists_token distinct ..).mp taken
    exact ⟨name, again, first, ⟨front, back, rfl, distinct, content, listed, label⟩, rfl⟩
  · rintro ⟨name, again, first, ⟨front, back, rfl, distinct, content, listed, label⟩, rfl⟩
    have taken := (get?_eq_some_iff_exists_token distinct ..).mpr ⟨first, listed, label, rfl⟩
    exact ⟨front, again, back, _, rfl, (declarations_empty_eq_ok_iff ..).mpr ⟨distinct, rfl⟩,
      (declarations_singleton_eq_error_iff ..).mpr ⟨name, _, content, taken, rfl⟩⟩

/-- Some label is declared again exactly when the labels are not all different. -/
theorem exists_firstRepeat_iff (code : List Token) :
    (∃ name again first, FirstRepeat code name again first) ↔ ¬ (labelsOf code).Nodup := by
  cases collecting : declarations {} code with
  | error failure =>
      obtain ⟨name, again, first, repeated, _⟩ :=
        (declarations_eq_error_iff_firstRepeat ..).mp collecting
      refine ⟨fun _ distinct => ?_, fun _ => ⟨name, again, first, repeated⟩⟩
      rw [(declarations_empty_eq_ok_iff ..).mpr ⟨distinct, rfl⟩] at collecting
      cases collecting
  | ok collected =>
      have distinct := ((declarations_empty_eq_ok_iff ..).mp collecting).1
      refine ⟨?_, fun repeated => absurd distinct repeated⟩
      rintro ⟨name, again, first, repeated⟩
      rw [(declarations_eq_error_iff_firstRepeat ..).mpr
        ⟨name, again, first, repeated, rfl⟩] at collecting
      cases collecting

/-! ## Labels that are also constants -/

/-- The first token that declares a label with the name of a constant, and the constant that
counts. -/
def FirstShared
    (code : List Token)
    (constants : List Constant)
    (name : String)
    (token : Token)
    (constant : Constant) : Prop :=
  ∃ front back, code = front ++ token :: back ∧
    (∀ other ∈ labelsOf front, other ∉ constants.map (·.name)) ∧
    token.content = .label name ∧ constant.IsLast constants name

theorem labelsOf_append (front back : List Token) :
    labelsOf (front ++ back) = labelsOf front ++ labelsOf back :=
  List.filterMap_append

theorem firstAmbiguous_eq_some_iff
    (code : List Token)
    (constants : List Constant)
    (name : String)
    (location : Location)
    (constant : Constant) :
    firstAmbiguous ⟨code.filterMap declaration?⟩ (Constant.table constants) =
        some (name, location, constant) ↔
      ∃ token, FirstShared code constants name token constant ∧ token.location = location := by
  rw [firstAmbiguous, List.findSome?_eq_some_iff]
  constructor
  · rintro ⟨entries, ⟨label, place⟩, others, entries_eq, found, clean⟩
    obtain ⟨front, rest, rfl, rfl, rest_eq⟩ := List.filterMap_eq_append_iff.mp entries_eq
    obtain ⟨gap, token, back, rfl, unlabelled, declared, _⟩ := List.filterMap_eq_cons_iff.mp rest_eq
    obtain ⟨content, rfl⟩ := (declaration?_eq_some_iff ..).mp declared
    obtain ⟨found, held, same⟩ := Option.map_eq_some_iff.mp found
    cases same
    -- The tokens of the gap declare nothing, so they can be counted to those in front.
    refine ⟨token, ⟨front ++ gap, back, by simp, ?_, content, ?_⟩, rfl⟩
    · rw [labelsOf_append, ← map_declaration? gap, List.filterMap_eq_nil_iff.mpr unlabelled,
        List.map_nil, List.append_nil, ← map_declaration?]
      intro other listed
      obtain ⟨entry, among, rfl⟩ := List.mem_map.mp listed
      rw [← constantTable_get?_eq_none_iff]
      simpa using clean entry among
    · exact (Constant.table_get?_eq_some_iff ..).mp held
  · rintro ⟨token, ⟨front, back, rfl, clean, content, last⟩, rfl⟩
    refine ⟨front.filterMap declaration?, (name, token.location), back.filterMap declaration?,
      ?_, ?_, ?_⟩
    · rw [List.filterMap_append,
        List.filterMap_cons_some ((declaration?_eq_some_iff ..).mpr ⟨content, rfl⟩)]
    · simp [(Constant.table_get?_eq_some_iff ..).mpr last]
    · intro entry among
      rw [← map_declaration?] at clean
      have absent := clean entry.1 (List.mem_map_of_mem among)
      simp [(constantTable_get?_eq_none_iff ..).mpr absent]

theorem firstAmbiguous_declared_eq_none_iff
    (code : List Token)
    (constants : List Constant) :
    firstAmbiguous ⟨code.filterMap declaration?⟩ (Constant.table constants) = none ↔
      ∀ name ∈ labelsOf code, name ∉ constants.map (·.name) := by
  rw [firstAmbiguous_eq_none_iff, Table.names, map_declaration?]
  simp only [constantTable_get?_eq_none_iff]

/-- Some label is the first to be a constant exactly when one is. -/
theorem exists_firstShared_iff
    (code : List Token)
    (constants : List Constant) :
    (∃ name token constant, FirstShared code constants name token constant) ↔
      ∃ name ∈ labelsOf code, name ∈ constants.map (·.name) := by
  have none_iff := firstAmbiguous_declared_eq_none_iff code constants
  have some_iff := firstAmbiguous_eq_some_iff code constants
  constructor
  · rintro ⟨name, token, constant, shared⟩
    by_contra disjoint
    push Not at disjoint
    have found := (some_iff name token.location constant).mpr ⟨token, shared, rfl⟩
    rw [none_iff.mpr disjoint] at found
    cases found
  · rintro ⟨name, declared, constant⟩
    cases found : firstAmbiguous ⟨code.filterMap declaration?⟩ (Constant.table constants) with
    | none => exact absurd constant (none_iff.mp found name declared)
    | some ambiguous =>
        obtain ⟨token, shared, _⟩ := (some_iff ..).mp found
        exact ⟨_, token, _, shared⟩

/-! ## Outcomes -/

/-- Why the names of a program are refused. Each reason counts if those before it do not hold. -/
inductive Refused
    (code : List Token)
    (constants : List Constant)
    (entryPoint : String) : Failure → Prop
  | repeated {name : String} {again first : Token} :
      FirstRepeat code name again first →
      Refused code constants entryPoint (.program {
        cause := .duplicateLabel name (some first.location)
        location := some again.location })
  | shared {name : String} {token : Token} {constant : Constant} :
      (labelsOf code).Nodup →
      FirstShared code constants name token constant →
      Refused code constants entryPoint (.program {
        cause := .ambiguousSymbol name (some constant.location)
        location := some token.location })
  | noEntryPoint :
      (labelsOf code).Nodup →
      (∀ name ∈ labelsOf code, name ∉ constants.map (·.name)) →
      entryPoint ∉ labelsOf code →
      Refused code constants entryPoint (.program { cause := .missingEntryPoint entryPoint })

theorem contains_declared_iff
    (code : List Token)
    (name : String) :
    (Table.mk (code.filterMap declaration?)).contains name = true ↔ name ∈ labelsOf code := by
  rw [Table.contains_iff_mem_names, Table.names, map_declaration?]

theorem validate_eq_error_iff
    (code : List Token)
    (constants : List Constant)
    (entryPoint : String)
    (failure : Failure) :
    validate code constants entryPoint = .error failure ↔
      Refused code constants entryPoint failure := by
  rw [validate, Outcome.bind_eq_error_iff, declarations_eq_error_iff_firstRepeat]
  constructor
  · rintro (⟨name, again, first, repeated, rfl⟩ | ⟨collected, read, failed⟩)
    · exact .repeated repeated
    · obtain ⟨distinct, rfl⟩ := (declarations_empty_eq_ok_iff ..).mp read
      dsimp only at failed
      split at failed
      · next name location constant ambiguous =>
          cases failed
          obtain ⟨token, shared, rfl⟩ := (firstAmbiguous_eq_some_iff ..).mp ambiguous
          exact .shared distinct shared
      · next unambiguous =>
          have disjoint := (firstAmbiguous_declared_eq_none_iff ..).mp unambiguous
          split at failed
          · cases failed
          · next missing =>
              cases failed
              refine .noEntryPoint distinct disjoint fun declared => missing ?_
              exact (contains_declared_iff ..).mpr declared
  · intro refused
    cases refused with
    | @repeated name again first repeated => exact .inl ⟨name, again, first, repeated, rfl⟩
    | @shared name token constant distinct shared =>
        refine .inr ⟨_, (declarations_empty_eq_ok_iff ..).mpr ⟨distinct, rfl⟩, ?_⟩
        dsimp only
        rw [(firstAmbiguous_eq_some_iff ..).mpr ⟨token, shared, rfl⟩]
        rfl
    | noEntryPoint distinct disjoint absent =>
        refine .inr ⟨_, (declarations_empty_eq_ok_iff ..).mpr ⟨distinct, rfl⟩, ?_⟩
        dsimp only
        rw [(firstAmbiguous_declared_eq_none_iff ..).mpr disjoint]
        exact if_neg fun declared => absent ((contains_declared_iff ..).mp declared)

/-- The names of a program pass exactly when its labels differ from each other and from its
constants and include the entry point. What is kept are the labels in order and, under each name,
the last constant with that name. Otherwise the names are refused, for a repeated label if there is
one, else for a label that is a constant if there is one, else for the lack of an entry point. -/
theorem validate_outcomes
    (code : List Token)
    (constants : List Constant)
    (entryPoint : String) :
    (∀ symbols, validate code constants entryPoint = .ok symbols ↔
      (labelsOf code).Nodup ∧
        (∀ name ∈ labelsOf code, name ∉ constants.map (·.name)) ∧
        entryPoint ∈ labelsOf code ∧
        symbols = ⟨labelsOf code, Constant.table constants⟩) ∧
    (Constant.table constants).names = (constants.map (·.name)).eraseDups ∧
    (∀ name constant, (Constant.table constants).get? name = some constant ↔
      constant.IsLast constants name) ∧
    (∀ failure, validate code constants entryPoint = .error failure ↔
      Refused code constants entryPoint failure) ∧
    ((∃ name again first, FirstRepeat code name again first) ↔ ¬ (labelsOf code).Nodup) ∧
    ((∃ name token constant, FirstShared code constants name token constant) ↔
      ∃ name ∈ labelsOf code, name ∈ constants.map (·.name)) := by
  refine ⟨validate_eq_ok_iff code constants entryPoint, ?_,
    Constant.table_get?_eq_some_iff constants, validate_eq_error_iff code constants entryPoint,
    exists_firstRepeat_iff code, exists_firstShared_iff code constants⟩
  rw [Constant.table, Table.names_ofList, List.map_map]
  rfl

end Symbols
end WordAsm
