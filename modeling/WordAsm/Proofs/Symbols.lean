import WordAsm.Proofs.Outcome
import WordAsm.Proofs.Table
import WordAsm.Symbols

/-!
# Which names a program may declare

The names of a program pass exactly when its labels differ from each other and from its
constants and include the entry point. What is kept of them are the labels in order of
declaration and the constants by name.
-/

namespace WordAsm
namespace Symbols

/-- The labels that tokens declare, in order. -/
def labelsOf (tokens : List Token) : List String :=
  tokens.filterMap (·.content.label?)

theorem mem_labelsOf_iff
    (tokens : List Token)
    (name : String) :
    name ∈ labelsOf tokens ↔ ∃ token ∈ tokens, token.content = .label name := by
  have labelled (content : Token.Content) : content.label? = some name ↔ content = .label name := by
    cases content <;> simp [Token.Content.label?]
  simp only [labelsOf, List.mem_filterMap, labelled]

/-- A label with its place, if a token declares one. -/
def declaration? (token : Token) : Option (String × Location) :=
  token.content.label?.map fun name => (name, token.location)

theorem map_declaration?
    (tokens : List Token) :
    (tokens.filterMap declaration?).map (·.1) = labelsOf tokens := by
  rw [List.map_filterMap, labelsOf]
  congr 1
  funext token
  rw [declaration?, Option.map_map]
  exact Option.map_id'

/-- The labels are collected exactly when each is new; they follow those before them. -/
theorem declarations_eq_ok_iff
    (before collected : Table Location)
    (tokens : List Token) :
    declarations before tokens = .ok collected ↔
      (∀ name ∈ labelsOf tokens, before.get? name = none) ∧ (labelsOf tokens).Nodup ∧
        collected.entries = before.entries ++ tokens.filterMap declaration? := by
  induction tokens generalizing before with
  | nil =>
      rw [declarations, labelsOf, List.filterMap_nil, List.filterMap_nil, List.append_nil]
      constructor
      · intro same
        cases same
        exact ⟨by simp, List.nodup_nil, rfl⟩
      · rintro ⟨_, _, same⟩
        cases before
        cases collected
        cases same
        rfl
  | cons token tokens hypothesis =>
      rw [declarations]
      split
      · next name content =>
          have labels : labelsOf (token :: tokens) = name :: labelsOf tokens := by
            simp [labelsOf, content, Token.Content.label?]
          have placed : (token :: tokens).filterMap declaration? =
              (name, token.location) :: tokens.filterMap declaration? := by
            simp [declaration?, content, Token.Content.label?]
          rw [labels, placed, List.forall_mem_cons, List.nodup_cons]
          split
          · next first taken => simp [taken]
          · next free =>
              rw [hypothesis, Table.entries_insert_of_absent _ _ _ free, List.append_assoc,
                List.singleton_append, Table.forall_get?_insert_eq_none_iff]
              constructor
              · rintro ⟨⟨fresh, absent⟩, distinct, same⟩
                exact ⟨⟨free, absent⟩, ⟨fresh, distinct⟩, same⟩
              · rintro ⟨⟨_, absent⟩, ⟨fresh, distinct⟩, same⟩
                exact ⟨⟨fresh, absent⟩, distinct, same⟩
      · next plain =>
          have unlabelled : token.content.label? = none := by
            cases content : token.content with
            | label name => exact absurd content (plain name)
            | _ => rfl
          have labels : labelsOf (token :: tokens) = labelsOf tokens := by
            simp [labelsOf, unlabelled]
          have placed : (token :: tokens).filterMap declaration? =
              tokens.filterMap declaration? := by
            simp [declaration?, unlabelled]
          rw [labels, placed]
          exact hypothesis before

/-- No label is ambiguous exactly when no constant has its name. -/
theorem firstAmbiguous_eq_none_iff
    (labels : Table Location)
    (constants : Table Constant) :
    firstAmbiguous labels constants = none ↔
      ∀ name ∈ labels.names, constants.get? name = none := by
  simp [firstAmbiguous, Table.names, List.findSome?_eq_none_iff]

theorem constantTable_get?_eq_none_iff
    (constants : List Constant)
    (name : String) :
    (Constant.table constants).get? name = none ↔ name ∉ constants.map (·.name) := by
  rw [Constant.table, Table.get?_ofList_eq_none_iff, List.map_map]
  rfl

theorem mem_of_constantTable_get?
    {constants : List Constant}
    {name : String}
    {constant : Constant}
    (found : (Constant.table constants).get? name = some constant) :
    constant ∈ constants ∧ constant.name = name := by
  obtain ⟨other, listed, same⟩ := List.mem_map.mp (Table.mem_of_get?_ofList found)
  cases same
  exact ⟨listed, rfl⟩

/-- Constants with different names are all found. -/
theorem constantTable_get?_of_mem
    {constants : List Constant}
    {constant : Constant}
    (distinct : (constants.map (·.name)).Nodup)
    (listed : constant ∈ constants) :
    (Constant.table constants).get? constant.name = some constant := by
  obtain ⟨before, after, rfl⟩ := List.append_of_mem listed
  rw [List.map_append, List.map_cons] at distinct
  have fresh := (List.nodup_cons.mp (List.nodup_append.mp distinct).2.1).1
  rw [Constant.table, List.map_append, List.map_cons]
  apply Table.get?_ofList_append
  intro entry among same
  obtain ⟨other, later, rfl⟩ := List.mem_map.mp among
  exact fresh (List.mem_map.mpr ⟨other, later, same⟩)

/-- The names of a program pass exactly when the labels differ from each other and from the
constants and include the entry point. -/
theorem validate_eq_ok_iff
    (code : List Token)
    (constants : List Constant)
    (entryPoint : String)
    (symbols : Symbols) :
    validate code constants entryPoint = .ok symbols ↔
      (labelsOf code).Nodup ∧
        (∀ name ∈ labelsOf code, name ∉ constants.map (·.name)) ∧
        entryPoint ∈ labelsOf code ∧
        symbols = ⟨labelsOf code, Constant.table constants⟩ := by
  have names_eq {collected : Table Location}
      (entries_eq : collected.entries = code.filterMap declaration?) :
      collected.names = labelsOf code := by
    rw [Table.names, entries_eq, map_declaration?]
  rw [validate, Outcome.bind_eq_ok_iff]
  constructor
  · rintro ⟨collected, read, passed⟩
    obtain ⟨_, distinct, entries_eq⟩ := (declarations_eq_ok_iff ..).mp read
    rw [← names_eq entries_eq] at distinct ⊢
    dsimp only at passed
    split at passed
    · cases passed
    · next unambiguous =>
        split at passed
        · next entry =>
            cases passed
            refine ⟨distinct, ?_, (Table.contains_iff_mem_names ..).mp entry, rfl⟩
            intro name listed
            rw [← constantTable_get?_eq_none_iff]
            exact (firstAmbiguous_eq_none_iff ..).mp unambiguous name listed
        · cases passed
  · rintro ⟨distinct, disjoint, entry, rfl⟩
    have entries_eq : (Table.mk (code.filterMap declaration?)).entries = _ := rfl
    refine ⟨⟨code.filterMap declaration?⟩, (declarations_eq_ok_iff ..).mpr
      ⟨fun _ _ => rfl, distinct, rfl⟩, ?_⟩
    rw [← names_eq entries_eq] at disjoint entry ⊢
    have unambiguous : firstAmbiguous ⟨code.filterMap declaration?⟩ (Constant.table constants) =
        none := by
      rw [firstAmbiguous_eq_none_iff]
      intro name listed
      exact (constantTable_get?_eq_none_iff ..).mpr (disjoint name listed)
    dsimp only
    rw [unambiguous]
    exact if_pos ((Table.contains_iff_mem_names ..).mpr entry)

end Symbols
end WordAsm
