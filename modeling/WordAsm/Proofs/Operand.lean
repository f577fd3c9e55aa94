import WordAsm.Operand
import WordAsm.Proofs.Constant.Declarations

/-!
# What operands resolve to

Every token of a code section is resolved for itself. Literals, registers and constants become
numbers, references to labels and all other tokens stay. Only registers become numbers from
32768 on.
-/

namespace WordAsm

/-- The registers are numbered from zero to seven. -/
theorem Machine.registerIndex?_lt
    {letter : Char}
    {index : Nat}
    (found : registerIndex? letter = some index) :
    index < 8 := by
  obtain ⟨bound, _⟩ := List.findIdx?_eq_some_iff_getElem.mp found
  exact bound

theorem Machine.registerAddress?_bounds
    {name : String}
    {address : Int}
    (found : registerAddress? name = some address) :
    32768 ≤ address ∧ address ≤ 32775 := by
  unfold registerAddress? at found
  split at found
  · obtain ⟨index, place, rfl⟩ := Option.map_eq_some_iff.mp found
    have small := registerIndex?_lt place
    simp only [registerBase]
    omega
  · cases found

namespace Token

/-- Whether a content stands for an operand in a source. -/
def Content.isOperand : Content → Bool
  | .number _ | .character _ | .register _ | .symbol _ => true
  | _ => false

/-- What a content of a code section becomes. -/
inductive Resolves (symbols : Symbols) : Content → Content → Prop
  | number (value : Int) :
      Resolves symbols (.number value) (.number (value % 32768))
  | character {text : String} {c : Char} :
      text.toList = [c] →
      c.toNat < 32768 →
      Resolves symbols (.character text) (.number c.toNat)
  | register {name : String} {address : Int} :
      Machine.registerAddress? name = some address →
      Resolves symbols (.register name) (.number address)
  | constant {name : String} {constant : Constant} :
      symbols.constants.get? name = some constant →
      Resolves symbols (.symbol name) (.number constant.value)
  | reference {name : String} :
      symbols.constants.get? name = none →
      name ∈ symbols.labels →
      Resolves symbols (.symbol name) (.symbol name)
  | other {content : Content} :
      content.isOperand = false →
      Resolves symbols content content

/-- Resolving neither makes nor loses a label. -/
theorem Resolves.label?_eq
    {symbols : Symbols}
    {content resolved : Content}
    (resolves : Resolves symbols content resolved) :
    resolved.label? = content.label? := by
  cases resolves <;> rfl

theorem resolveContent_eq_ok_iff
    (symbols : Symbols)
    (location : Location)
    (content resolved : Content) :
    resolveContent symbols location content = .ok resolved ↔
      Resolves symbols content resolved := by
  constructor
  · intro read
    unfold resolveContent at read
    split at read
    · cases read
      exact .number _
    · obtain ⟨point, point_eq, bounded⟩ := Outcome.bind_eq_ok_iff.mp read
      obtain ⟨c, single, rfl⟩ := (codePoint_eq_ok_iff ..).mp point_eq
      split at bounded
      · cases bounded
      · next small =>
          cases bounded
          exact .character single (Nat.lt_of_not_le small)
    · split at read
      · next address found =>
          cases read
          exact .register found
      · cases read
    · split at read
      · next constant found =>
          cases read
          exact .constant found
      · next absent =>
          split at read
          · next label =>
              cases read
              exact .reference absent (List.contains_iff_mem.mp label)
          · cases read
    · next number character register name =>
        cases read
        apply Resolves.other
        cases content with
        | number value => exact absurd rfl (number value)
        | character text => exact absurd rfl (character text)
        | register text => exact absurd rfl (register text)
        | symbol text => exact absurd rfl (name text)
        | _ => rfl
  · intro resolves
    cases resolves with
    | number value => rfl
    | character single small =>
        exact Outcome.bind_eq_ok_iff.mpr ⟨_, (codePoint_eq_ok_iff ..).mpr ⟨_, single, rfl⟩,
          if_neg (Nat.not_le_of_lt small)⟩
    | register found => simp [resolveContent, found]
    | constant found => simp [resolveContent, found]
    | reference absent label => simp [resolveContent, absent, Symbols.isLabel, label]
    | other plain => cases content <;> first | rfl | cases plain

/-- A code section is resolved exactly when each of its tokens is, and every token keeps its
place. -/
theorem resolveAll_eq_ok_iff
    (symbols : Symbols)
    (tokens resolved : List Token) :
    resolveAll symbols tokens = .ok resolved ↔
      List.Forall₂ (fun token result => Resolves symbols token.content result.content ∧
        result.location = token.location) tokens resolved := by
  rw [resolveAll, Outcome.mapM_eq_ok_iff]
  have each (token result : Token) : resolve symbols token = .ok result ↔
      Resolves symbols token.content result.content ∧ result.location = token.location := by
    rw [resolve, Outcome.map_eq_ok_iff]
    constructor
    · rintro ⟨content, read, rfl⟩
      exact ⟨(resolveContent_eq_ok_iff ..).mp read, rfl⟩
    · rintro ⟨resolves, same⟩
      refine ⟨result.content, (resolveContent_eq_ok_iff ..).mpr resolves, ?_⟩
      rw [← same]
  simp only [each]

end Token
end WordAsm
