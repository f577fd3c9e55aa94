import WordAsm.Proofs.Constant.Declarations
import WordAsm.Proofs.Correspondence.Basic

/-!
# Stages before encoding

Dividing corresponding programs, compiling their data sections, checking their names and resolving
their operands gives corresponding results or corresponding failures. Names matter to these stages
only as far as they are equal or different.
-/

namespace WordAsm
namespace Correspondence

open Outcome (Parallel)

variable {c : Correspondence}

/-! ## Sections -/

variable (c) in
/-- Sections of one name with corresponding tokens. -/
structure Sections (first second : Section) : Prop where
  name : second.name = first.name
  tokens : List.Forall₂ c.Tokens first.tokens second.tokens

variable (c) in
/-- Layouts with corresponding sections. -/
structure Layouts (first second : Layout) : Prop where
  data : c.Sections first.data second.data
  code : c.Sections first.code second.code

theorem forall₂_trim
    {first second : List Token}
    (related : List.Forall₂ c.Tokens first second) :
    List.Forall₂ c.Tokens (Section.trim first) (Section.trim second) := by
  cases related with
  | nil => exact .nil
  | @cons token partner _ _ here later =>
      rw [Section.trim, Section.trim]
      by_cases ended : token.content = .lineEnd
      · rw [if_pos ended, if_pos (here.content.eq_lineEnd_iff.mpr ended)]
        exact later
      · rw [if_neg ended, if_neg (mt here.content.eq_lineEnd_iff.mp ended)]
        exact .cons here later

/-- Corresponding programs are divided at the same places. -/
theorem forall₂_divide
    {first second : List Token}
    (related : List.Forall₂ c.Tokens first second) :
    List.Forall₂ c.Tokens (Section.divide first).1 (Section.divide second).1 ∧
      List.Forall₂ c.Sections (Section.divide first).2 (Section.divide second).2 := by
  induction related with
  | nil => exact ⟨.nil, .nil⟩
  | @cons token partner tokens partners here _ hypothesis =>
      change List.Forall₂ c.Tokens (Section.prepend token (Section.divide tokens)).1
          (Section.prepend partner (Section.divide partners)).1 ∧
        List.Forall₂ c.Sections (Section.prepend token (Section.divide tokens)).2
          (Section.prepend partner (Section.divide partners)).2
      obtain ⟨content, location⟩ := token
      obtain ⟨other, place⟩ := partner
      have contents := here.content
      cases contents with
      | marker name => exact ⟨.nil, .cons ⟨rfl, forall₂_trim hypothesis.1⟩ hypothesis.2⟩
      | _ => exact ⟨.cons here hypothesis.1, hypothesis.2⟩

theorem map_name_eq
    {first second : List Section}
    (related : List.Forall₂ c.Sections first second) :
    second.map (·.name) = first.map (·.name) := by
  induction related with
  | nil => rfl
  | cons here _ hypothesis => rw [List.map_cons, List.map_cons, here.name, hypothesis]

theorem parallel_ofSections
    {first second : List Section}
    (related : List.Forall₂ c.Sections first second) :
    Parallel c.Failures c.Layouts (Layout.ofSections first) (Layout.ofSections second) := by
  have names_eq := map_name_eq related
  have length_eq := related.length_eq
  unfold Layout.ofSections
  dsimp only
  rw [names_eq]
  split
  · exact .error (c.failures_overall rfl rfl)
  · split
    · exact .error (c.failures_overall rfl rfl)
    · cases related with
      | nil => exact .error (c.failures_overall rfl rfl)
      | cons here later =>
          cases later with
          | nil => exact .error (c.failures_overall rfl rfl)
          | cons next later =>
              cases later with
              | nil =>
                  dsimp only
                  rw [here.name]
                  split
                  · exact .ok ⟨here, next⟩
                  · exact .ok ⟨next, here⟩
              | cons =>
                  dsimp only
                  rw [length_eq]
                  exact .error (c.failures_overall rfl rfl)

theorem parallel_layout
    {first second : List Token}
    (related : List.Forall₂ c.Tokens first second) :
    Parallel c.Failures c.Layouts (Layout.ofTokens first) (Layout.ofTokens second) := by
  obtain ⟨outside, sections⟩ := forall₂_divide related
  unfold Layout.ofTokens
  generalize Section.divide first = divided at outside sections
  generalize Section.divide second = partners at outside sections
  obtain ⟨front, rest⟩ := divided
  obtain ⟨other, others⟩ := partners
  cases outside with
  | nil => exact parallel_ofSections sections
  | cons here => exact .error (c.failures_located rfl here.content.isWritable_eq here.line)

/-! ## Constants -/

variable (c) in
/-- Constants under corresponding names with the same value. -/
structure Constants (first second : Constant) : Prop where
  name : second.name = c.rename first.name
  value : second.value = first.value
  line : c.lines first.line second.line

theorem parallel_codePoint (text : String) :
    Parallel c.Failures Eq (codePoint text) (codePoint text) := by
  unfold codePoint
  split
  · exact .ok rfl
  · exact .error ⟨rfl, .none⟩

section Declarations

variable {first second : Token}

theorem Tokens.parallel_nameOf (related : c.Tokens first second) :
    Parallel c.Failures (fun name partner => partner = c.rename name)
      (Constant.nameOf first) (Constant.nameOf second) := by
  obtain ⟨content, location⟩ := first
  obtain ⟨other, place⟩ := second
  have contents := related.content
  cases contents with
  | symbol name => exact .ok rfl
  | _ => exact .error (c.failures_located rfl rfl related.line)

theorem Tokens.parallel_typeOf (related : c.Tokens first second) :
    Parallel c.Failures Eq (Constant.typeOf first) (Constant.typeOf second) := by
  obtain ⟨content, location⟩ := first
  obtain ⟨other, place⟩ := second
  have contents := related.content
  cases contents with
  | typeWord name =>
      unfold Constant.typeOf
      dsimp only
      split
      · exact .ok rfl
      · exact .error (c.failures_located rfl rfl related.line)
  | _ => exact .error (c.failures_located rfl rfl related.line)

theorem Tokens.parallel_literalOf
    (related : c.Tokens first second)
    (name partner : String)
    (type : ConstantType) :
    Parallel c.Failures Eq (Constant.literalOf name type first)
      (Constant.literalOf partner type second) := by
  obtain ⟨content, location⟩ := first
  obtain ⟨other, place⟩ := second
  have contents := related.content
  cases type with
  | number =>
      cases contents with
      | number value => exact .ok rfl
      | _ => exact .error (c.failures_located rfl rfl related.line)
  | character =>
      cases contents with
      | character text => exact .ok rfl
      | _ => exact .error (c.failures_located rfl rfl related.line)

theorem Tokens.parallel_value
    (related : c.Tokens first second)
    (name partner : String)
    (literal : Constant.Literal) :
    Parallel c.Failures Eq (literal.value name first.location)
      (literal.value partner second.location) := by
  cases literal with
  | number value => exact .ok rfl
  | character text =>
      refine (parallel_codePoint text).bind ?_
      rintro point _ rfl
      split
      · exact .error (c.failures_located rfl rfl related.line)
      · exact .ok rfl

theorem Tokens.parallel_next
    {tokens partners : List Token}
    (last : c.Tokens first second)
    (related : List.Forall₂ c.Tokens tokens partners)
    (part : DeclarationPart) :
    Parallel c.Failures
      (fun here there => c.Tokens here.1 there.1 ∧ List.Forall₂ c.Tokens here.2 there.2)
      (Constant.next part first tokens) (Constant.next part second partners) := by
  cases related with
  | nil => exact .error (c.failures_located rfl rfl last.line)
  | cons here later => exact .ok ⟨here, later⟩

theorem Tokens.parallel_requireLineEnd (related : c.Tokens first second) :
    Parallel c.Failures Eq (Constant.requireLineEnd first) (Constant.requireLineEnd second) := by
  simp only [Constant.requireLineEnd, ne_eq, related.content.eq_lineEnd_iff]
  split
  · exact .error (c.failures_located rfl related.content.isWritable_eq related.line)
  · exact .ok rfl

/-- Corresponding declarations are read alike, position by position. -/
theorem Tokens.parallel_declaration
    {tokens partners : List Token}
    (here : c.Tokens first second)
    (related : List.Forall₂ c.Tokens tokens partners) :
    Parallel c.Failures
      (fun made other => c.Constants made.1 other.1 ∧ List.Forall₂ c.Tokens made.2 other.2)
      (Constant.declaration first tokens) (Constant.declaration second partners) := by
  unfold Constant.declaration
  apply here.parallel_nameOf.bind
  rintro name _ rfl
  apply (here.parallel_next related .typeWord).bind
  rintro found partner ⟨typeWord, afterType⟩
  apply typeWord.parallel_typeOf.bind
  rintro type _ rfl
  apply (typeWord.parallel_next afterType (.literal type)).bind
  rintro found partner ⟨literal, afterLiteral⟩
  apply (literal.parallel_literalOf name (c.rename name) type).bind
  rintro read _ rfl
  apply (literal.parallel_next afterLiteral .lineEnd).bind
  rintro found partner ⟨lineEnd, behind⟩
  apply lineEnd.parallel_requireLineEnd.bind
  rintro _ _ rfl
  apply (literal.parallel_value name (c.rename name) read).bind
  rintro value _ rfl
  exact .ok ⟨⟨rfl, rfl, here.line⟩, behind⟩

end Declarations

/-- Corresponding data sections declare corresponding constants. -/
theorem parallel_declarations
    {before others : Array Constant}
    {tokens partners : List Token}
    (earlier : List.Forall₂ c.Constants before.toList others.toList)
    (related : List.Forall₂ c.Tokens tokens partners) :
    Parallel c.Failures (List.Forall₂ c.Constants) (Constant.declarations before tokens)
      (Constant.declarations others partners) := by
  induction before, tokens using Constant.declarations_induction generalizing others partners with
  | nil before =>
      cases related
      exact .ok earlier
  | cons before first tokens hypothesis =>
      cases related with
      | @cons _ second _ partners here later =>
          have declared := here.parallel_declaration later
          rw [Constant.declarations_cons, Constant.declarations_cons]
          cases read : Constant.declaration first tokens with
          | error failure =>
              obtain ⟨other, refused, failures⟩ := declared.of_error read
              rw [refused]
              exact .error failures
          | ok made =>
              obtain ⟨partner, same, constants, behind⟩ := declared.of_ok read
              rw [same]
              apply hypothesis made read _ behind
              rw [Array.toList_push, Array.toList_push]
              exact List.rel_append earlier (.cons constants .nil)

theorem rel_firstRepeat
    {before others : Table Constant}
    {first second : List Constant}
    (earlier : c.Tables c.Constants before others)
    (related : List.Forall₂ c.Constants first second) :
    Option.Rel (fun repeated partner => c.Constants repeated.1 partner.1)
      (Constant.firstRepeat before first) (Constant.firstRepeat others second) := by
  induction related generalizing before others with
  | nil => exact .none
  | @cons constant partner _ _ here _ hypothesis =>
      have found := earlier.get? constant.name
      rw [Constant.firstRepeat, Constant.firstRepeat, here.name]
      generalize before.get? constant.name = taken at found
      generalize others.get? (c.rename constant.name) = other at found
      cases found with
      | some => exact .some here
      | none => exact hypothesis (earlier.insert constant.name here)

theorem parallel_compile
    {first second : List Token}
    (related : List.Forall₂ c.Tokens first second) :
    Parallel c.Failures (List.Forall₂ c.Constants) (Constant.compile first)
      (Constant.compile second) := by
  refine (parallel_declarations .nil related).bind fun constants partners declared => ?_
  have repeated := rel_firstRepeat (show c.Tables c.Constants {} {} from .nil) declared
  generalize Constant.firstRepeat {} constants = found at repeated
  generalize Constant.firstRepeat {} partners = other at repeated
  cases repeated with
  | none => exact .ok declared
  | some here => exact .error (c.failures_located rfl rfl here.line)

/-! ## Symbols -/

variable (c) in
/-- The same symbols under corresponding names. -/
structure SymbolTables (first second : Symbols) : Prop where
  labels : second.labels = first.labels.map c.rename
  constants : c.Tables c.Constants first.constants second.constants

theorem SymbolTables.isLabel_eq
    {first second : Symbols}
    (related : c.SymbolTables first second)
    (name : String) :
    second.isLabel (c.rename name) = first.isLabel name := by
  rw [Symbols.isLabel, Symbols.isLabel, related.labels, Bool.eq_iff_iff, List.contains_iff_mem,
    List.contains_iff_mem, List.mem_map_of_injective c.injective]

/-- Corresponding code sections declare corresponding labels. -/
theorem parallel_labels
    {before others : Table Location}
    {first second : List Token}
    (earlier : c.Tables (fun here there => c.lines here.line there.line) before others)
    (related : List.Forall₂ c.Tokens first second) :
    Parallel c.Failures (c.Tables fun here there => c.lines here.line there.line)
      (Symbols.declarations before first) (Symbols.declarations others second) := by
  induction related generalizing before others with
  | nil => exact .ok earlier
  | @cons token partner _ _ here _ hypothesis =>
      obtain ⟨content, location⟩ := token
      obtain ⟨other, place⟩ := partner
      have contents := here.content
      cases contents with
      | label name =>
          have found := earlier.get? name
          simp only [Symbols.declarations]
          generalize before.get? name = taken at found
          generalize others.get? (c.rename name) = occupied at found
          cases found with
          | some => exact .error (c.failures_located rfl rfl here.line)
          | none => exact hypothesis (earlier.insert name here.line)
      | _ => exact hypothesis earlier

theorem rel_firstAmbiguous
    {first second : Table Location}
    {constants partners : Table Constant}
    (labels : c.Tables (fun here there => c.lines here.line there.line) first second)
    (tables : c.Tables c.Constants constants partners) :
    Option.Rel (fun found partner => c.lines found.2.1.line partner.2.1.line)
      (Symbols.firstAmbiguous first constants) (Symbols.firstAmbiguous second partners) := by
  obtain ⟨entries⟩ := first
  obtain ⟨others⟩ := second
  change List.Forall₂ _ entries others at labels
  unfold Symbols.firstAmbiguous
  dsimp only
  induction labels with
  | nil => exact .none
  | @cons here there _ _ same _ hypothesis =>
      obtain ⟨name, location⟩ := here
      obtain ⟨_, place⟩ := there
      obtain ⟨rfl, line⟩ := same
      have found := tables.get? name
      rw [List.findSome?_cons, List.findSome?_cons]
      dsimp only
      generalize constants.get? name = constant at found
      generalize partners.get? (c.rename name) = partner at found
      cases found with
      | some => exact .some line
      | none => exact hypothesis

theorem tables_constants
    {constants partners : List Constant}
    (related : List.Forall₂ c.Constants constants partners) :
    c.Tables c.Constants (Constant.table constants) (Constant.table partners) := by
  refine tables_ofList (List.rel_map ?_ related)
  intro constant partner here
  exact ⟨here.name, here⟩

theorem parallel_validate
    {first second : List Token}
    {constants partners : List Constant}
    (code : List.Forall₂ c.Tokens first second)
    (declared : List.Forall₂ c.Constants constants partners)
    (entryPoint : String) :
    Parallel c.Failures c.SymbolTables (Symbols.validate first constants entryPoint)
      (Symbols.validate second partners (c.rename entryPoint)) := by
  have tables := tables_constants declared
  refine (parallel_labels .nil code).bind fun labels others collected => ?_
  have ambiguous := rel_firstAmbiguous collected tables
  dsimp only
  generalize Symbols.firstAmbiguous labels (Constant.table constants) = found at ambiguous
  generalize Symbols.firstAmbiguous others (Constant.table partners) = other at ambiguous
  rw [collected.contains_eq]
  cases ambiguous with
  | some line => exact .error (c.failures_located rfl rfl line)
  | none =>
      dsimp only
      split
      · exact .ok ⟨collected.names_eq, tables⟩
      · exact .error (c.failures_overall rfl rfl)

/-! ## Operands -/

theorem parallel_resolve
    {symbols others : Symbols}
    {first second : Token}
    (tables : c.SymbolTables symbols others)
    (related : c.Tokens first second) :
    Parallel c.Failures c.Tokens (Token.resolve symbols first) (Token.resolve others second) := by
  have contents : Parallel c.Failures c.Contents
      (Token.resolveContent symbols first.location first.content)
      (Token.resolveContent others second.location second.content) := by
    obtain ⟨content, location⟩ := first
    obtain ⟨other, place⟩ := second
    have line := related.line
    cases related.content with
    | number value => exact .ok (.number _)
    | character text =>
        refine (parallel_codePoint text).bind ?_
        rintro point _ rfl
        split
        · exact .error (c.failures_located rfl rfl line)
        · exact .ok (.number _)
    | register same =>
        simp only [Token.resolveContent, same]
        split
        · exact .ok (.number _)
        · exact .error ⟨rfl, .none⟩
    | symbol name =>
        have found := tables.constants.get? name
        simp only [Token.resolveContent, tables.isLabel_eq]
        generalize symbols.constants.get? name = constant at found
        generalize others.constants.get? (c.rename name) = partner at found
        cases found with
        | some here =>
            dsimp only
            rw [here.value]
            exact .ok (.number _)
        | none =>
            dsimp only
            split
            · exact .ok (.symbol name)
            · exact .error (c.failures_located rfl rfl line)
    | marker name => exact .ok (.marker name)
    | label name => exact .ok (.label name)
    | lineEnd => exact .ok .lineEnd
    | comma => exact .ok .comma
    | mnemonic name => exact .ok (.mnemonic name)
    | typeWord name => exact .ok (.typeWord name)
  exact contents.map fun _ _ resolved => ⟨resolved, related.line⟩

/-- Corresponding code sections are resolved to corresponding tokens. -/
theorem parallel_resolveAll
    {symbols others : Symbols}
    {first second : List Token}
    (tables : c.SymbolTables symbols others)
    (related : List.Forall₂ c.Tokens first second) :
    Parallel c.Failures (List.Forall₂ c.Tokens) (Token.resolveAll symbols first)
      (Token.resolveAll others second) :=
  Parallel.mapM (fun _ _ here => parallel_resolve tables here) related

end Correspondence
end WordAsm
