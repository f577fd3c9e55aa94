/-!
# Tables by name

Values kept under names in the order in which the names first appeared. A name that is
entered again keeps its place and takes the new value.
-/

namespace WordAsm

/-- Values under pairwise different names, in order of first appearance. -/
structure Table (α : Type) where
  entries : List (String × α) := []
  deriving DecidableEq

namespace Table

variable {α : Type}

/-- Replace the value under a name where it stands, or add it at the end. -/
def put
    (name : String)
    (value : α) : List (String × α) → List (String × α)
  | [] => [(name, value)]
  | (key, old) :: rest =>
      if key = name then (key, value) :: rest else (key, old) :: put name value rest

/-- Enter a value under a name. -/
def insert
    (table : Table α)
    (name : String)
    (value : α) : Table α :=
  ⟨put name value table.entries⟩

/-- The table of a list of entries, entered one after the other. -/
def ofList (entries : List (String × α)) : Table α :=
  entries.foldl (fun table (name, value) => table.insert name value) {}

/-- The value under a name. -/
def get?
    (table : Table α)
    (name : String) : Option α :=
  table.entries.lookup name

/-- Whether a name is entered. -/
def contains
    (table : Table α)
    (name : String) : Bool :=
  (table.get? name).isSome

/-- The names, in order of first appearance. -/
def names (table : Table α) : List String :=
  table.entries.map (·.1)

/-- Enter all entries of a second table into a first one. -/
def union
    (first second : Table α) : Table α :=
  second.entries.foldl (fun table (name, value) => table.insert name value) first

theorem lookup_cons_ite
    {κ : Type}
    [BEq κ]
    [LawfulBEq κ]
    [DecidableEq κ]
    (name other : κ)
    (value : α)
    (entries : List (κ × α)) :
    List.lookup other ((name, value) :: entries) =
      if other = name then some value else entries.lookup other := by
  rw [List.lookup_cons]
  by_cases same : other = name
  · rw [if_pos same, beq_iff_eq.mpr same]
  · rw [if_neg same, beq_false_of_ne same]

theorem lookup_put
    (name other : String)
    (value : α)
    (entries : List (String × α)) :
    (put name value entries).lookup other =
      if other = name then some value else entries.lookup other := by
  induction entries with
  | nil => exact lookup_cons_ite name other value []
  | cons entry rest hypothesis =>
      obtain ⟨key, old⟩ := entry
      by_cases found : key = name
      · rw [put, if_pos found, lookup_cons_ite, lookup_cons_ite, found]
        by_cases same : other = name
        · rw [if_pos same, if_pos same]
        · rw [if_neg same, if_neg same, if_neg same]
      · rw [put, if_neg found, lookup_cons_ite, lookup_cons_ite, hypothesis]
        by_cases same : other = key
        · rw [if_pos same, if_pos same, if_neg (same ▸ found)]
        · rw [if_neg same, if_neg same]

/-- Entering a value changes what stands under its name, and nothing else. -/
theorem get?_insert
    (table : Table α)
    (name other : String)
    (value : α) :
    (table.insert name value).get? other =
      if other = name then some value else table.get? other :=
  lookup_put name other value table.entries

end Table
end WordAsm
