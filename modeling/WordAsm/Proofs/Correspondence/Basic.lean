import Mathlib.Data.List.Forall2
import WordAsm.Assembly

/-!
# Programs that correspond

Two programs correspond if their tokens do one by one: the symbols of the second are those of the
first under other names, different ones for different symbols, and its tokens stand on
corresponding lines. What the stages make of such programs corresponds again. Either both succeed,
or both fail for the same kind of reason on corresponding lines.
-/

namespace WordAsm

/-! ## Outcomes side by side -/

namespace Outcome

variable {ε α β γ δ : Type}

/-- Two outcomes that are both results or both failures, and are related as such. -/
inductive Parallel
    (failures : ε → ε → Prop)
    (results : α → β → Prop) : Except ε α → Except ε β → Prop
  | ok {first : α} {second : β} :
      results first second →
      Parallel failures results (.ok first) (.ok second)
  | error {first second : ε} :
      failures first second →
      Parallel failures results (.error first) (.error second)

namespace Parallel

variable {failures : ε → ε → Prop} {inputs : α → β → Prop} {results : γ → δ → Prop}

theorem of_ok
    {first : Except ε α}
    {second : Except ε β}
    {value : α}
    (stage : Parallel failures inputs first second)
    (succeeded : first = .ok value) :
    ∃ partner, second = .ok partner ∧ inputs value partner := by
  cases stage with
  | ok related =>
      cases succeeded
      exact ⟨_, rfl, related⟩
  | error => cases succeeded

theorem of_error
    {first : Except ε α}
    {second : Except ε β}
    {failure : ε}
    (stage : Parallel failures inputs first second)
    (failed : first = .error failure) :
    ∃ partner, second = .error partner ∧ failures failure partner := by
  cases stage with
  | ok => cases failed
  | error related =>
      cases failed
      exact ⟨_, rfl, related⟩

theorem exists_ok_iff
    {first : Except ε α}
    {second : Except ε β}
    (stage : Parallel failures inputs first second) :
    (∃ partner, second = .ok partner) ↔ ∃ value, first = .ok value := by
  cases stage with
  | ok => exact ⟨fun _ => ⟨_, rfl⟩, fun _ => ⟨_, rfl⟩⟩
  | error => simp

theorem bind
    {first : Except ε α}
    {second : Except ε β}
    {next : α → Except ε γ}
    {following : β → Except ε δ}
    (stage : Parallel failures inputs first second)
    (rest : ∀ here there, inputs here there →
      Parallel failures results (next here) (following there)) :
    Parallel failures results (first >>= next) (second >>= following) := by
  cases stage with
  | ok related => exact rest _ _ related
  | error related => exact .error related

theorem map
    {first : Except ε α}
    {second : Except ε β}
    {function : α → γ}
    {other : β → δ}
    (stage : Parallel failures inputs first second)
    (rest : ∀ here there, inputs here there → results (function here) (other there)) :
    Parallel failures results (first.map function) (second.map other) := by
  cases stage with
  | ok related => exact .ok (rest _ _ related)
  | error related => exact .error related

theorem mapM
    {stage : α → Except ε γ}
    {other : β → Except ε δ}
    {values : List α}
    {others : List β}
    (each : ∀ here there, inputs here there → Parallel failures results (stage here) (other there))
    (related : List.Forall₂ inputs values others) :
    Parallel failures (List.Forall₂ results) (values.mapM stage) (others.mapM other) := by
  induction related with
  | nil => exact .ok .nil
  | cons here _ hypothesis =>
      rw [List.mapM_cons, List.mapM_cons]
      refine (each _ _ here).bind fun first second made => ?_
      refine hypothesis.bind fun _ _ later => ?_
      exact .ok (.cons made later)

theorem foldlM
    {step : γ → α → Except ε γ}
    {other : δ → β → Except ε δ}
    {values : List α}
    {others : List β}
    {state : γ}
    {partner : δ}
    (each : ∀ state partner here there, results state partner → inputs here there →
      Parallel failures results (step state here) (other partner there))
    (related : List.Forall₂ inputs values others)
    (start : results state partner) :
    Parallel failures results (values.foldlM step state) (others.foldlM other partner) := by
  induction related generalizing state partner with
  | nil => exact .ok start
  | cons here _ hypothesis =>
      rw [List.foldlM_cons, List.foldlM_cons]
      exact (each _ _ _ _ start here).bind fun _ _ next => hypothesis next

end Parallel
end Outcome

/-! ## Failures of one kind -/

/-- The kinds of failures: faults of each category, and what is no fault of the program. -/
inductive Failure.Kind
  | fault (category : Category)
  | longNumber
  | noRegister
  | noCharacter
  | file
  | notText
  deriving DecidableEq

/-- The kind of a failure. -/
def Failure.kind : Failure → Kind
  | .program fault => .fault fault.cause.category
  | .longNumeral _ | .longNumber => .longNumber
  | .noRegister _ => .noRegister
  | .noCharacter _ => .noCharacter
  | .file _ _ => .file
  | .notText _ => .notText

/-- The line on which a failure is located, where there is one. -/
def Failure.line? : Failure → Option Int
  | .program fault => fault.location.map (·.line)
  | _ => none

/-- Failures of one kind on the same line. -/
structure Failure.Alike (first second : Failure) : Prop where
  kind : second.kind = first.kind
  line : second.line? = first.line?

/-- How two programs correspond: other names for their symbols, and related lines. -/
structure Correspondence where
  rename : String → String
  injective : Function.Injective rename
  lines : Int → Int → Prop

namespace Correspondence

variable (c : Correspondence)

/-- Failures of one kind on corresponding lines. -/
structure Failures (first second : Failure) : Prop where
  kind : second.kind = first.kind
  line : Option.Rel c.lines first.line? second.line?

theorem failures_located
    {first second : Cause}
    {here there : Location}
    (category : second.category = first.category)
    (writable : second.isWritable = first.isWritable)
    (line : c.lines here.line there.line) :
    c.Failures (.located here first) (.located there second) := by
  rw [Failure.located, Failure.located, Failure.ofFault, Failure.ofFault, writable]
  split
  · exact ⟨congrArg Failure.Kind.fault category, .some line⟩
  · exact ⟨rfl, .none⟩

theorem failures_overall
    {first second : Cause}
    (category : second.category = first.category)
    (writable : second.isWritable = first.isWritable) :
    c.Failures (.overall first) (.overall second) := by
  rw [Failure.overall, Failure.overall, Failure.ofFault, Failure.ofFault, writable]
  split
  · exact ⟨congrArg Failure.Kind.fault category, .none⟩
  · exact ⟨rfl, .none⟩

/-! ## Tokens -/

/-- Contents that differ in the name of a symbol, or in the spelling of a register. -/
inductive Contents : Token.Content → Token.Content → Prop
  | marker (name : String) : Contents (.marker name) (.marker name)
  | label (name : String) : Contents (.label name) (.label (c.rename name))
  | lineEnd : Contents .lineEnd .lineEnd
  | comma : Contents .comma .comma
  | mnemonic (name : String) : Contents (.mnemonic name) (.mnemonic name)
  | typeWord (name : String) : Contents (.typeWord name) (.typeWord name)
  | register {first second : String} :
      Machine.registerAddress? second = Machine.registerAddress? first →
      Contents (.register first) (.register second)
  | symbol (name : String) : Contents (.symbol name) (.symbol (c.rename name))
  | number (value : Int) : Contents (.number value) (.number value)
  | character (text : String) : Contents (.character text) (.character text)

/-- Tokens with corresponding contents on corresponding lines. -/
structure Tokens (first second : Token) : Prop where
  content : c.Contents first.content second.content
  line : c.lines first.location.line second.location.line

variable {c}

theorem Contents.isWritable_eq
    {first second : Token.Content}
    (related : c.Contents first second) :
    second.isWritable = first.isWritable := by
  cases related <;> rfl

theorem Contents.width_eq
    {first second : Token.Content}
    (related : c.Contents first second) :
    second.width = first.width := by
  cases related <;> rfl

theorem Contents.eq_lineEnd_iff
    {first second : Token.Content}
    (related : c.Contents first second) :
    second = .lineEnd ↔ first = .lineEnd := by
  cases related <;> simp

/-! ## Tables -/

section Tables

variable {α β : Type} {values : α → β → Prop}

variable (c values) in
/-- Entries under corresponding names. -/
def Bindings
    (first : String × α)
    (second : String × β) : Prop :=
  second.1 = c.rename first.1 ∧ values first.2 second.2

variable (c values) in
/-- Tables with corresponding entries in the same order. -/
def Tables
    (first : Table α)
    (second : Table β) : Prop :=
  List.Forall₂ (c.Bindings values) first.entries second.entries

theorem Tables.get?
    {first : Table α}
    {second : Table β}
    (related : c.Tables values first second)
    (name : String) :
    Option.Rel values (first.get? name) (second.get? (c.rename name)) := by
  obtain ⟨entries⟩ := first
  obtain ⟨others⟩ := second
  change Option.Rel values (entries.lookup name) (others.lookup (c.rename name))
  change List.Forall₂ _ entries others at related
  induction related with
  | nil => exact .none
  | @cons here there _ _ same _ hypothesis =>
      obtain ⟨key, value⟩ := here
      obtain ⟨other, partner⟩ := there
      obtain ⟨rfl, valued⟩ := same
      rw [Table.lookup_cons_ite, Table.lookup_cons_ite]
      by_cases found : name = key
      · rw [if_pos found, if_pos (congrArg c.rename found)]
        exact .some valued
      · rw [if_neg found, if_neg (c.injective.ne found)]
        exact hypothesis

theorem Tables.insert
    {first : Table α}
    {second : Table β}
    {value : α}
    {partner : β}
    (related : c.Tables values first second)
    (name : String)
    (valued : values value partner) :
    c.Tables values (first.insert name value) (second.insert (c.rename name) partner) := by
  obtain ⟨entries⟩ := first
  obtain ⟨others⟩ := second
  change List.Forall₂ _ (Table.put name value entries) (Table.put (c.rename name) partner others)
  change List.Forall₂ _ entries others at related
  induction related with
  | nil => exact .cons ⟨rfl, valued⟩ .nil
  | @cons here there _ _ same later hypothesis =>
      obtain ⟨key, old⟩ := here
      obtain ⟨other, _⟩ := there
      obtain ⟨rfl, replaced⟩ := same
      rw [Table.put, Table.put]
      by_cases found : key = name
      · rw [if_pos found, if_pos (congrArg c.rename found)]
        exact .cons ⟨rfl, valued⟩ later
      · rw [if_neg found, if_neg (c.injective.ne found)]
        exact .cons ⟨rfl, replaced⟩ hypothesis

theorem tables_ofList
    {entries : List (String × α)}
    {others : List (String × β)}
    (related : List.Forall₂ (c.Bindings values) entries others) :
    c.Tables values (.ofList entries) (.ofList others) := by
  refine List.rel_foldl ?_ (show c.Tables values {} {} from .nil) related
  rintro first second tables ⟨name, value⟩ ⟨_, partner⟩ ⟨rfl, valued⟩
  exact tables.insert name valued

theorem Tables.names_eq
    {first : Table α}
    {second : Table β}
    (related : c.Tables values first second) :
    second.names = first.names.map c.rename := by
  obtain ⟨entries⟩ := first
  obtain ⟨others⟩ := second
  change others.map (·.1) = (entries.map (·.1)).map c.rename
  change List.Forall₂ _ entries others at related
  induction related with
  | nil => rfl
  | cons same _ hypothesis =>
      rw [List.map_cons, List.map_cons, List.map_cons, same.1, hypothesis]

theorem Tables.contains_eq
    {first : Table α}
    {second : Table β}
    (related : c.Tables values first second)
    (name : String) :
    second.contains (c.rename name) = first.contains name := by
  rw [Table.contains, Table.contains]
  have found := related.get? name
  generalize first.get? name = value at found
  generalize second.get? (c.rename name) = partner at found
  cases found <;> rfl

end Tables
end Correspondence
end WordAsm
