import WordAsm.Proofs.Correspondence.Stages

/-!
# Encoding programs that correspond

The labels of corresponding code sections get the same addresses, and the encoder makes the same
words of both. Side by side the two encoders are in the same state, except for the lines of what
they have read. With the stages before, whole programs are assembled alike.
-/

namespace WordAsm
namespace Correspondence

open Outcome (Parallel)

variable {c : Correspondence}

/-! ## Addresses -/

variable (c) in
/-- Labels under corresponding names with the same address. -/
structure LabelBindings (first second : Address.Binding) : Prop where
  name : second.name = c.rename first.name
  address : second.address = first.address

theorem forall₂_bindingsFrom
    {before others : Array Address.Binding}
    {first second : List Token}
    (address : Nat)
    (earlier : List.Forall₂ c.LabelBindings before.toList others.toList)
    (related : List.Forall₂ c.Tokens first second) :
    List.Forall₂ c.LabelBindings (Address.bindingsFrom address before first)
      (Address.bindingsFrom address others second) := by
  induction related generalizing address before others with
  | nil => exact earlier
  | @cons token partner _ _ here _ hypothesis =>
      rw [Address.bindingsFrom, Address.bindingsFrom, here.content.width_eq]
      apply hypothesis
      obtain ⟨content, location⟩ := token
      obtain ⟨other, place⟩ := partner
      cases here.content with
      | label name =>
          dsimp only
          rw [Array.toList_push, Array.toList_push]
          exact List.rel_append earlier (.cons ⟨rfl, rfl⟩ .nil)
      | _ => exact earlier

/-- Corresponding labels have the same address. -/
theorem tables_addresses
    {first second : List Token}
    (related : List.Forall₂ c.Tokens first second) :
    c.Tables Eq (Address.table first) (Address.table second) := by
  refine tables_ofList (List.rel_map ?_ (forall₂_bindingsFrom 0 .nil related))
  intro binding partner here
  exact ⟨here.name, congrArg Nat.cast here.address.symm⟩

/-! ## The encoder -/

open Encoder

variable (c) in
/-- The same instruction on corresponding lines. -/
structure Pendings (first second : Pending) : Prop where
  instruction : second.instruction = first.instruction
  operands : second.operands = first.operands
  line : c.lines first.line second.line

variable (c) in
/-- The same state of the encoder. -/
inductive States : State → State → Prop
  | instruction :
      States .instruction .instruction
  | operand {first second : Pending} (kind : OperandKind) (later : List OperandKind) :
      c.Pendings first second →
      States (.operand first kind later) (.operand second kind later)
  | separator {first second : Pending} (later : List OperandKind) :
      c.Pendings first second →
      States (.separator first later) (.separator second later)

variable (c) in
/-- The same instruction at the same address, on corresponding lines. -/
structure Entries (first second : Entry) : Prop where
  address : second.address = first.address
  line : c.lines first.line second.line
  mnemonic : second.mnemonic = first.mnemonic
  words : second.words = first.words

variable (c) in
/-- Encoders with the same instructions in the same state. -/
structure Encoders (first second : Encoder) : Prop where
  entries : List.Forall₂ c.Entries first.entries.toList second.entries.toList
  address : second.address = first.address
  state : c.States first.state second.state

theorem Pendings.failures_tooFew
    {first second : Pending}
    {here there : Location}
    (related : c.Pendings first second)
    (line : c.lines here.line there.line) :
    c.Failures (first.tooFew here) (second.tooFew there) := by
  rw [Pending.tooFew, Pending.tooFew, related.instruction, related.operands]
  exact c.failures_located rfl rfl line

theorem parallel_beginInstruction
    {here there : Location}
    (name : String)
    (line : c.lines here.line there.line) :
    Parallel c.Failures c.States (beginInstruction name here) (beginInstruction name there) := by
  unfold beginInstruction
  split
  · exact .error (c.failures_located rfl rfl line)
  · dsimp only
    split
    · exact .ok (.separator [] ⟨rfl, rfl, line⟩)
    · exact .ok (.operand _ _ ⟨rfl, rfl, line⟩)

section Operands

variable {addresses others : Table Int} {first second : Pending} {token partner : Token}

theorem parallel_operandWord
    (tables : c.Tables Eq addresses others)
    (pendings : c.Pendings first second)
    (related : c.Tokens token partner) :
    Parallel c.Failures Eq (operandWord addresses first token)
      (operandWord others second partner) := by
  obtain ⟨content, location⟩ := token
  obtain ⟨other, place⟩ := partner
  have line := related.line
  cases related.content with
  | lineEnd => exact .error (pendings.failures_tooFew line)
  | number value => exact .ok rfl
  | symbol name =>
      have found := tables.get? name
      simp only [operandWord]
      generalize addresses.get? name = address at found
      generalize others.get? (c.rename name) = other at found
      cases found with
      | some same => exact .ok same
      | none => exact .error (c.failures_located rfl rfl line)
  | _ => exact .error (c.failures_located rfl rfl line)

theorem parallel_readOperand
    (tables : c.Tables Eq addresses others)
    (pendings : c.Pendings first second)
    (kind : OperandKind)
    (later : List OperandKind)
    (related : c.Tokens token partner) :
    Parallel c.Failures c.States (readOperand addresses first kind later token)
      (readOperand others second kind later partner) := by
  refine (parallel_operandWord tables pendings related).bind ?_
  rintro word _ rfl
  split
  · exact .ok (.separator later ⟨pendings.instruction, by rw [pendings.operands], pendings.line⟩)
  · exact .error (c.failures_located rfl rfl related.line)

end Operands

theorem Encoders.close
    {first second : Encoder}
    {pending partner : Pending}
    (encoders : c.Encoders first second)
    (pendings : c.Pendings pending partner) :
    c.Encoders (first.close pending) (second.close partner) := by
  refine ⟨?_, ?_, .instruction⟩
  · rw [Encoder.close, Encoder.close, Array.toList_push, Array.toList_push]
    refine List.rel_append encoders.entries (.cons ⟨?_, pendings.line, ?_, ?_⟩ .nil)
    · exact congrArg Nat.cast encoders.address
    · exact congrArg Instruction.mnemonic pendings.instruction
    · rw [Pending.entry, Pending.entry, pendings.instruction, pendings.operands]
  · rw [Encoder.close, Encoder.close, encoders.address, pendings.operands]

/-- Reading corresponding tokens leads to the same state. -/
theorem parallel_step
    {addresses others : Table Int}
    {first second : Encoder}
    {token partner : Token}
    (tables : c.Tables Eq addresses others)
    (encoders : c.Encoders first second)
    (related : c.Tokens token partner) :
    Parallel c.Failures c.Encoders (step addresses first token) (step others second partner) := by
  obtain ⟨entries, address, state⟩ := first
  obtain ⟨rows, place, partnerState⟩ := second
  obtain ⟨content, location⟩ := token
  obtain ⟨other, spot⟩ := partner
  have line := related.line
  have states := encoders.state
  cases states with
  | instruction =>
      cases related.content with
      | label => exact .ok encoders
      | lineEnd => exact .ok encoders
      | mnemonic name =>
          refine (parallel_beginInstruction name line).bind fun _ _ states => ?_
          exact .ok ⟨encoders.entries, encoders.address, states⟩
      | _ => exact .error (c.failures_located rfl rfl line)
  | operand kind later pendings =>
      refine (parallel_readOperand tables pendings kind later related).bind fun _ _ states => ?_
      exact .ok ⟨encoders.entries, encoders.address, states⟩
  | separator later pendings =>
      cases later with
      | nil =>
          cases related.content with
          | lineEnd => exact .ok (encoders.close pendings)
          | _ => exact .error (c.failures_located rfl rfl line)
      | cons kind later =>
          cases related.content with
          | lineEnd => exact .error (pendings.failures_tooFew line)
          | comma =>
              exact .ok ⟨encoders.entries, encoders.address, .operand kind later pendings⟩
          | _ => exact .error (c.failures_located rfl rfl line)

theorem parallel_finish
    {first second : Encoder}
    {here there : Location}
    (encoders : c.Encoders first second)
    (line : c.lines here.line there.line) :
    Parallel c.Failures (List.Forall₂ c.Entries) (first.finish here) (second.finish there) := by
  obtain ⟨entries, address, state⟩ := first
  obtain ⟨rows, place, partnerState⟩ := second
  have states := encoders.state
  cases states with
  | instruction => exact .ok encoders.entries
  | operand kind later pendings => exact .error (pendings.failures_tooFew line)
  | separator later pendings =>
      cases later with
      | nil => exact .ok (encoders.close pendings).entries
      | cons => exact .error (pendings.failures_tooFew line)

theorem parallel_entriesOf
    {addresses others : Table Int}
    {first second : List Token}
    (tables : c.Tables Eq addresses others)
    (related : List.Forall₂ c.Tokens first second) :
    Parallel c.Failures (List.Forall₂ c.Entries) (entriesOf addresses first)
      (entriesOf others second) := by
  have start : c.Encoders {} {} := ⟨.nil, rfl, .instruction⟩
  have run : Parallel c.Failures c.Encoders (first.foldlM (step addresses) {})
      (second.foldlM (step others) {}) :=
    Parallel.foldlM (fun _ _ _ _ encoders here => parallel_step tables encoders here) related start
  refine run.bind fun encoder partner encoders => ?_
  have last : Option.Rel c.Tokens first.getLast? second.getLast? := by
    have reversed := List.rel_reverse related
    rw [List.getLast?_eq_head?_reverse, List.getLast?_eq_head?_reverse]
    generalize first.reverse = backward at reversed
    generalize second.reverse = others at reversed
    cases reversed with
    | nil => exact .none
    | cons here => exact .some here
  generalize first.getLast? = here at last
  generalize second.getLast? = there at last
  cases last with
  | none => exact .ok .nil
  | some tokens => exact parallel_finish encoders tokens.line

variable (c) in
/-- The same code under corresponding names. -/
structure Codes (first second : Code) : Prop where
  labels : c.Tables Eq first.labels second.labels
  entries : List.Forall₂ c.Entries first.entries second.entries

/-- Corresponding resolved tokens give the same code. -/
theorem parallel_generate
    {first second : List Token}
    (related : List.Forall₂ c.Tokens first second) :
    Parallel c.Failures c.Codes (Code.generate first) (Code.generate second) := by
  have tables := tables_addresses related
  refine (parallel_entriesOf tables related).bind fun _ _ entries => ?_
  exact .ok ⟨tables, entries⟩

theorem allWords_eq
    {first second : List Entry}
    (related : List.Forall₂ c.Entries first second) :
    Entry.allWords second = Entry.allWords first := by
  induction related with
  | nil => rfl
  | cons here _ hypothesis =>
      rw [Entry.allWords, List.flatMap_cons, here.words, ← Entry.allWords, hypothesis]
      rfl

/-! ## Whole programs -/

variable (c) in
/-- Assemblies with the same words and with symbols under corresponding names. -/
structure Assemblies (first second : Assembly) : Prop where
  words : second.words = first.words
  constants : List.Forall₂ c.Constants first.constants second.constants
  labels : c.Tables Eq first.labels second.labels
  entries : List.Forall₂ c.Entries first.entries second.entries

/-- Corresponding programs are both assembled, into the same words, or fail alike. -/
theorem parallel_ofTokens
    {first second : List Token}
    (settings : Settings)
    (related : List.Forall₂ c.Tokens first second) :
    Parallel c.Failures c.Assemblies (Assembly.ofTokens settings first)
      (Assembly.ofTokens { settings with entryPoint := c.rename settings.entryPoint } second) := by
  refine (parallel_layout related).bind fun layout partner layouts => ?_
  refine (parallel_compile layouts.data.tokens).bind fun _ _ constants => ?_
  refine (parallel_validate layouts.code.tokens constants _).bind fun _ _ symbols => ?_
  refine (parallel_resolveAll symbols layouts.code.tokens).bind fun _ _ resolved => ?_
  refine (parallel_generate resolved).bind fun _ _ codes => ?_
  refine .ok ⟨?_, constants, codes.labels, codes.entries⟩
  exact congrArg (· ++ Assembly.terminator settings) (allWords_eq codes.entries)

/-- The values of the constants stay under corresponding names. -/
theorem Assemblies.constantValues
    {first second : Assembly}
    (related : c.Assemblies first second) :
    c.Tables Eq first.constantValues second.constantValues := by
  refine tables_ofList (List.rel_map ?_ related.constants)
  intro constant partner here
  exact ⟨here.name, here.value.symm⟩

end Correspondence
end WordAsm
