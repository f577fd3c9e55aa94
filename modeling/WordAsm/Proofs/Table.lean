import Mathlib.Data.List.Induction
import WordAsm.Table

/-!
# What stands under a name

A table made from a list of entries holds under each name the value that the list enters last,
and its names are those of the list in order of first appearance.
-/

namespace WordAsm
namespace Table

variable {α : Type}

/-- Entering entries one after the other overwrites what stood under their names. -/
theorem get?_foldl_insert
    (entries : List (String × α))
    (table : Table α)
    (name : String) :
    (entries.foldl (fun table (name, value) => table.insert name value) table).get? name =
      (entries.reverse.lookup name).or (table.get? name) := by
  induction entries generalizing table with
  | nil => rfl
  | cons entry entries hypothesis =>
      obtain ⟨key, value⟩ := entry
      rw [List.foldl_cons, hypothesis, get?_insert, List.reverse_cons, List.lookup_append,
        Option.or_assoc, lookup_cons_ite]
      by_cases same : name = key
      · rw [if_pos same, if_pos same, Option.some_or]
      · rw [if_neg same, if_neg same, List.lookup_nil, Option.none_or]

/-- The last entry under a name counts. -/
theorem get?_ofList
    (entries : List (String × α))
    (name : String) :
    (ofList entries).get? name = entries.reverse.lookup name := by
  have empty : ({} : Table α).get? name = none := rfl
  rw [ofList, get?_foldl_insert, empty, Option.or_none]

theorem get?_ofList_append
    (before after : List (String × α))
    (name : String)
    (value : α)
    (absent : ∀ entry ∈ after, entry.1 ≠ name) :
    (ofList (before ++ (name, value) :: after)).get? name = some value := by
  have later : after.reverse.lookup name = none := by
    rw [List.lookup_eq_none_iff]
    intro entry member
    exact bne_iff_ne.mpr (absent entry (List.mem_reverse.mp member)).symm
  rw [get?_ofList, List.reverse_append, List.reverse_cons, List.append_assoc,
    List.lookup_append, later, Option.none_or, List.singleton_append, List.lookup_cons_self]

theorem mem_of_get?_ofList
    {entries : List (String × α)}
    {name : String}
    {value : α}
    (found : (ofList entries).get? name = some value) :
    (name, value) ∈ entries := by
  rw [get?_ofList, List.lookup_eq_some_iff] at found
  obtain ⟨before, after, split, _⟩ := found
  rw [← List.mem_reverse, split]
  exact List.mem_append_right _ (List.mem_cons_self ..)

theorem exists_get?_ofList
    {entries : List (String × α)}
    {name : String}
    (member : name ∈ entries.map (·.1)) :
    ∃ value, (ofList entries).get? name = some value := by
  rw [← Option.isSome_iff_exists, get?_ofList, List.lookup_isSome_iff]
  obtain ⟨entry, listed, rfl⟩ := List.mem_map.mp member
  exact ⟨entry, List.mem_reverse.mpr listed, beq_self_eq_true _⟩

theorem get?_ofList_eq_none_iff
    (entries : List (String × α))
    (name : String) :
    (ofList entries).get? name = none ↔ name ∉ entries.map (·.1) := by
  constructor
  · intro absent member
    obtain ⟨value, found⟩ := exists_get?_ofList member
    rw [absent] at found
    cases found
  · intro absent
    rw [Option.eq_none_iff_forall_not_mem]
    intro value found
    exact absent (List.mem_map_of_mem (mem_of_get?_ofList found))

theorem contains_iff_mem_names
    (table : Table α)
    (name : String) :
    table.contains name = true ↔ name ∈ table.names := by
  rw [contains, get?, List.lookup_isSome_iff, names, List.mem_map]
  constructor
  · rintro ⟨entry, listed, same⟩
    exact ⟨entry, listed, (beq_iff_eq.mp same).symm⟩
  · rintro ⟨entry, listed, same⟩
    exact ⟨entry, listed, beq_iff_eq.mpr same.symm⟩

/-- Names are free behind an entry exactly when they were free and differ from its name. -/
theorem forall_get?_insert_eq_none_iff
    (table : Table α)
    (name : String)
    (value : α)
    (names : List String) :
    (∀ other ∈ names, (table.insert name value).get? other = none) ↔
      name ∉ names ∧ ∀ other ∈ names, table.get? other = none := by
  simp only [get?_insert]
  constructor
  · intro free
    refine ⟨fun repeated => ?_, fun other listed => ?_⟩
    · have absent := free name repeated
      rw [if_pos rfl] at absent
      cases absent
    · have absent := free other listed
      split at absent
      · cases absent
      · exact absent
  · rintro ⟨fresh, free⟩ other listed
    have different : other ≠ name := by
      rintro rfl
      exact fresh listed
    rw [if_neg different]
    exact free other listed

/-- A new name is entered at the end. -/
theorem entries_insert_of_absent
    (table : Table α)
    (name : String)
    (value : α)
    (absent : table.get? name = none) :
    (table.insert name value).entries = table.entries ++ [(name, value)] := by
  obtain ⟨entries⟩ := table
  change put name value entries = entries ++ [(name, value)]
  change entries.lookup name = none at absent
  induction entries with
  | nil => rfl
  | cons entry entries hypothesis =>
      obtain ⟨key, old⟩ := entry
      rw [lookup_cons_ite] at absent
      by_cases same : name = key
      · rw [if_pos same] at absent
        cases absent
      · rw [if_neg same] at absent
        rw [put, if_neg (Ne.symm same), hypothesis absent, List.cons_append]

theorem entries_foldl_insert
    (entries : List (String × α))
    (table : Table α)
    (free : ∀ name ∈ entries.map (·.1), table.get? name = none)
    (distinct : (entries.map (·.1)).Nodup) :
    (entries.foldl (fun table (name, value) => table.insert name value) table).entries =
      table.entries ++ entries := by
  induction entries generalizing table with
  | nil => exact (List.append_nil _).symm
  | cons entry entries hypothesis =>
      obtain ⟨name, value⟩ := entry
      rw [List.map_cons, List.forall_mem_cons] at free
      rw [List.map_cons, List.nodup_cons] at distinct
      have later := (forall_get?_insert_eq_none_iff table name value _).mpr ⟨distinct.1, free.2⟩
      rw [List.foldl_cons, hypothesis _ later distinct.2,
        entries_insert_of_absent table name value free.1, List.append_assoc, List.singleton_append]

/-- A table made from entries with different names holds just these entries. -/
theorem entries_ofList
    {entries : List (String × α)}
    (distinct : (entries.map (·.1)).Nodup) :
    (ofList entries).entries = entries :=
  entries_foldl_insert entries {} (fun _ _ => rfl) distinct

/-- Under different names stands exactly what is entered. -/
theorem get?_eq_some_iff_mem
    {table : Table α}
    (distinct : table.names.Nodup)
    (name : String)
    (value : α) :
    table.get? name = some value ↔ (name, value) ∈ table.entries := by
  obtain ⟨entries⟩ := table
  change entries.lookup name = some value ↔ (name, value) ∈ entries
  change (entries.map (·.1)).Nodup at distinct
  induction entries with
  | nil => simp
  | cons entry entries hypothesis =>
      obtain ⟨key, first⟩ := entry
      rw [List.map_cons, List.nodup_cons] at distinct
      rw [lookup_cons_ite, List.mem_cons, Prod.mk.injEq]
      obtain rfl | other := eq_or_ne name key
      · have absent : (name, value) ∉ entries :=
          fun listed => distinct.1 (List.mem_map.mpr ⟨_, listed, rfl⟩)
        simp [absent, eq_comm]
      · simp [other, hypothesis distinct.2]

/-- Tables of different names that hold the same entries hold the same under every name. -/
theorem get?_eq_of_perm
    {first second : Table α}
    (distinct : first.names.Nodup)
    (same : first.entries.Perm second.entries)
    (name : String) :
    first.get? name = second.get? name := by
  have distinctOther : second.names.Nodup := (same.map _).nodup_iff.mp distinct
  ext value
  rw [get?_eq_some_iff_mem distinct, get?_eq_some_iff_mem distinctOther, same.mem_iff]

/-- A name that is entered again keeps its place. -/
theorem names_insert
    (table : Table α)
    (name : String)
    (value : α) :
    (table.insert name value).names =
      if name ∈ table.names then table.names else table.names ++ [name] := by
  obtain ⟨entries⟩ := table
  change (put name value entries).map (·.1) =
    if name ∈ entries.map (·.1) then entries.map (·.1) else entries.map (·.1) ++ [name]
  induction entries with
  | nil => rfl
  | cons entry entries hypothesis =>
      obtain ⟨key, old⟩ := entry
      rw [put]
      by_cases same : key = name
      · simp [same]
      · have other : name ≠ key := Ne.symm same
        rw [if_neg same, List.map_cons, hypothesis, List.map_cons]
        split
        · next listed => rw [if_pos (List.mem_cons_of_mem _ listed)]
        · next absent => rw [if_neg (by simpa [other] using absent), List.cons_append]

/-- The names of a table stand in the order in which they first appear. -/
theorem names_ofList (entries : List (String × α)) :
    (ofList entries).names = (entries.map (·.1)).eraseDups := by
  induction entries using List.reverseRecOn with
  | nil => rfl
  | append_singleton entries entry hypothesis =>
      have inserted : ofList (entries ++ [entry]) = (ofList entries).insert entry.1 entry.2 := by
        rw [ofList, List.foldl_append]
        rfl
      rw [inserted, names_insert, hypothesis, List.map_append, List.map_singleton,
        List.eraseDups_append]
      by_cases listed : entry.1 ∈ entries.map (·.1)
      · rw [if_pos (List.mem_eraseDups.mpr listed)]
        simp [List.removeAll, List.mem_map.mp listed]
      · rw [if_neg (fun among => listed (List.mem_eraseDups.mp among))]
        have kept : [entry.1].removeAll (entries.map (·.1)) = [entry.1] := by
          simp [List.removeAll, -List.mem_map, listed]
        rw [kept]
        rfl

end Table
end WordAsm
