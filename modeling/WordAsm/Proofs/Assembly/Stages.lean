import WordAsm.Assembly
import WordAsm.Proofs.Encoding.Addresses
import WordAsm.Proofs.Operand
import WordAsm.Proofs.Symbols

/-!
# The stages of an assembly

An assembly succeeds exactly when each of its stages does. What the stages yield is kept
together, so that a fact about one of them can be used for the words of the whole program.
-/

namespace WordAsm
namespace Assembly

/-- Resolving keeps the labels. -/
theorem labelsOf_of_resolveAll
    {symbols : Symbols}
    {sources resolved : List Token}
    (resolves : Token.resolveAll symbols sources = .ok resolved) :
    Symbols.labelsOf resolved = Symbols.labelsOf sources := by
  have each := (Token.resolveAll_eq_ok_iff ..).mp resolves
  clear resolves
  induction each with
  | nil => rfl
  | @cons source result sources resolved here _ hypothesis =>
      rw [Symbols.labelsOf, List.filterMap_cons, here.1.label?_eq, ← Symbols.labelsOf, hypothesis,
        Symbols.labelsOf, Symbols.labelsOf, List.filterMap_cons]

/-- What the stages of a successful assembly of some tokens yield. -/
structure Stages
    (settings : Settings)
    (tokens : List Token) where
  layout : Layout
  constants : List Constant
  symbols : Symbols
  resolved : List Token
  code : Code
  divided : Layout.ofTokens tokens = .ok layout
  compiled : Constant.compile layout.data.tokens = .ok constants
  validated : Symbols.validate layout.code.tokens constants settings.entryPoint = .ok symbols
  resolves : Token.resolveAll symbols layout.code.tokens = .ok resolved
  generated : Code.generate resolved = .ok code

namespace Stages

variable {settings : Settings} {tokens : List Token}

/-- The assembly that stages yield. -/
def assembly (stages : Stages settings tokens) : Assembly where
  words := stages.code.words ++ terminator settings
  constants := stages.constants
  labels := stages.code.labels
  entries := stages.code.entries

/-- The symbols are the labels of the code section and the constants of the data section. -/
theorem symbols_eq (stages : Stages settings tokens) :
    stages.symbols =
      ⟨Symbols.labelsOf stages.layout.code.tokens, Constant.table stages.constants⟩ :=
  ((Symbols.validate_eq_ok_iff ..).mp stages.validated).2.2.2

/-- The resolved tokens declare the labels of the code section. -/
theorem labelsOf_resolved (stages : Stages settings tokens) :
    Symbols.labelsOf stages.resolved = Symbols.labelsOf stages.layout.code.tokens :=
  labelsOf_of_resolveAll stages.resolves

/-- Every bound label is declared in the code section. -/
theorem mem_labelsOf
    (stages : Stages settings tokens)
    {name : String}
    {address : Int}
    (bound : stages.code.labels.get? name = some address) :
    name ∈ Symbols.labelsOf stages.layout.code.tokens := by
  obtain ⟨labels_eq, _⟩ := Code.entriesOf_of_generate stages.generated
  rw [← stages.labelsOf_resolved, Symbols.mem_labelsOf_iff, ← Address.contains_table_iff,
    Table.contains, ← labels_eq, bound]
  rfl

/-- No bound label has the name of a constant. -/
theorem not_mem_constants_of_label
    (stages : Stages settings tokens)
    {name : String}
    {address : Int}
    (bound : stages.code.labels.get? name = some address) :
    name ∉ stages.constants.map (·.name) := by
  obtain ⟨_, disjoint, _⟩ := (Symbols.validate_eq_ok_iff ..).mp stages.validated
  exact disjoint name (stages.mem_labelsOf bound)

end Stages

/-- Tokens are assembled exactly when every stage succeeds. -/
theorem ofTokens_eq_ok_iff
    (settings : Settings)
    (tokens : List Token)
    (assembly : Assembly) :
    ofTokens settings tokens = .ok assembly ↔
      ∃ stages : Stages settings tokens, assembly = stages.assembly := by
  constructor
  · intro assembled
    obtain ⟨layout, divided, assembled⟩ := Outcome.bind_eq_ok_iff.mp assembled
    obtain ⟨constants, compiled, assembled⟩ := Outcome.bind_eq_ok_iff.mp assembled
    obtain ⟨symbols, validated, assembled⟩ := Outcome.bind_eq_ok_iff.mp assembled
    obtain ⟨resolved, resolves, assembled⟩ := Outcome.bind_eq_ok_iff.mp assembled
    obtain ⟨code, generated, assembled⟩ := Outcome.bind_eq_ok_iff.mp assembled
    cases assembled
    exact ⟨⟨layout, constants, symbols, resolved, code, divided, compiled, validated, resolves,
      generated⟩, rfl⟩
  · rintro ⟨stages, rfl⟩
    exact Outcome.bind_eq_ok_iff.mpr ⟨_, stages.divided,
      Outcome.bind_eq_ok_iff.mpr ⟨_, stages.compiled,
      Outcome.bind_eq_ok_iff.mpr ⟨_, stages.validated,
      Outcome.bind_eq_ok_iff.mpr ⟨_, stages.resolves,
      Outcome.bind_eq_ok_iff.mpr ⟨_, stages.generated, rfl⟩⟩⟩⟩⟩

/-- A source that can be read is assembled from its tokens. -/
theorem ofSource_of_read
    {settings : Settings}
    {source file : String}
    {tokens : List Token}
    (read : Token.ofSource source file = .ok tokens) :
    ofSource settings source file = (ofTokens settings tokens).map (·.withSource source) := by
  rw [ofSource, read]
  change (ofTokens settings tokens >>= fun assembly => .ok (assembly.withSource source)) = _
  cases ofTokens settings tokens <;> rfl

/-- A source is assembled exactly when it can be read and its tokens are assembled. -/
theorem ofSource_eq_ok_iff
    (settings : Settings)
    (source file : String)
    (assembly : Assembly) :
    ofSource settings source file = .ok assembly ↔
      ∃ tokens, Token.ofSource source file = .ok tokens ∧
        ∃ stages : Stages settings tokens, assembly = stages.assembly.withSource source := by
  rw [ofSource, Outcome.bind_eq_ok_iff]
  constructor
  · rintro ⟨tokens, read, assembled⟩
    obtain ⟨unsourced, assembled, finished⟩ := Outcome.bind_eq_ok_iff.mp assembled
    obtain ⟨stages, rfl⟩ := (ofTokens_eq_ok_iff ..).mp assembled
    cases finished
    exact ⟨tokens, read, stages, rfl⟩
  · rintro ⟨tokens, read, stages, rfl⟩
    exact ⟨tokens, read, Outcome.bind_eq_ok_iff.mpr ⟨stages.assembly,
      (ofTokens_eq_ok_iff ..).mpr ⟨stages, rfl⟩, rfl⟩⟩

end Assembly
end WordAsm
