import WordAsm.Proofs.Assembly.Closure
import WordAsm.Proofs.Correspondence.Places
import WordAsm.Proofs.Section
import WordAsm.Proofs.Token.LetterCase

/-!
# Programs in another case

Whether mnemonics, type words and registers are written in small letters or in capitals makes no
difference to what a program is assembled into, nor to the line on which it fails. The names of
labels and constants are different: what a program refers to must be declared in the same case.
-/

namespace WordAsm

/-! ## Names are declared as they are written -/

namespace Assembly

/-- Every name of a program is declared as it is written: a label is a label of the assembly, and a
reference or a declared constant is a constant or a label. -/
theorem Stages.contains_names
    {settings : Settings}
    {tokens : List Token}
    (stages : Stages settings tokens)
    {token : Token}
    (listed : token ∈ tokens)
    (name : String) :
    (token.content = .label name → stages.assembly.labels.contains name = true) ∧
      (token.content = .symbol name → stages.assembly.constantValues.contains name = true ∨
        stages.assembly.labels.contains name = true) := by
  obtain ⟨divided, _⟩ := (Layout.ofTokens_eq_ok_iff ..).mp stages.divided
  obtain ⟨declared, _⟩ := (Constant.compile_eq_ok_iff ..).mp stages.compiled
  have labelled (among : name ∈ Symbols.labelsOf stages.layout.code.tokens) :
      stages.assembly.labels.contains name = true := by
    obtain ⟨labels_eq, _⟩ := Code.entriesOf_of_generate stages.generated
    change stages.code.labels.contains name = true
    rwa [labels_eq, Address.contains_table_iff, ← Symbols.mem_labelsOf_iff,
      stages.labelsOf_resolved]
  have constant (among : name ∈ stages.constants.map (·.name)) :
      stages.assembly.constantValues.contains name = true := by
    rw [Table.contains, Option.isSome_iff_exists]
    apply Table.exists_get?_ofList
    rwa [List.map_map]
  have placed (plain : token.content.isMarker = false) (inner : token.content ≠ .lineEnd) :
      token ∈ stages.layout.data.tokens ∨ token ∈ stages.layout.code.tokens := by
    have among := Section.mem_of_divide listed plain inner
    rw [divided] at among
    obtain outside | ⟨part, inOrder, inside⟩ := among
    · cases outside
    · have part_eq : part = stages.layout.data ∨ part = stages.layout.code := by
        rw [Layout.inOrder] at inOrder
        split at inOrder <;> simpa [or_comm] using inOrder
      obtain rfl | rfl := part_eq
      · exact .inl inside
      · exact .inr inside
  constructor
  · intro content
    obtain data | code := placed (by rw [content]; rfl) (by rw [content]; simp)
    · exact absurd content (declared.mem_names data name).1
    · exact labelled ((Symbols.mem_labelsOf_iff ..).mpr ⟨token, code, content⟩)
  · intro content
    obtain data | code := placed (by rw [content]; rfl) (by rw [content]; simp)
    · exact .inl (constant ((declared.mem_names data name).2 content))
    · have resolves := stages.resolves
      rw [stages.symbols_eq] at resolves
      exact (declared_of_resolveAll resolves code content).imp constant labelled

end Assembly

/-! ## The same program in another case -/

namespace Correspondence

/-- Tokens that are equal up to the case of a register correspond on their lines. -/
theorem inPlace_of_sameUpToCase
    {first second : Token}
    (same : first.SameUpToCase second) :
    inPlace.Tokens first second := by
  obtain ⟨content, location⟩ := same
  refine ⟨?_, congrArg Location.line location.symm⟩
  generalize first.content = here at content
  generalize second.content = there at content
  cases content with
  | refl => exact contents_refl rfl here
  | register letters => exact .register (Machine.registerAddress?_eq_of_toUpper_eq letters)

end Correspondence

namespace Assembly

/-- If only letters of mnemonics, type words and registers change their case, the source is read as
the same tokens at the same places up to the case of registers, or fails on the same line, and it is
assembled into the same words, labels and constants, or fails alike on the same line. The names of
an assembled program are all declared in the case in which they are written. -/
theorem letterCase_irrelevant
    {file source other : String}
    (recased : Token.Recased file source other)
    (settings : Settings) :
    List.Forall₂ Token.SameUpToCase (Token.read source file).tokens
        (Token.read other file).tokens ∧
      Option.Rel Failure.Alike (Token.read source file).failure (Token.read other file).failure ∧
      Outcome.Parallel Failure.Alike SameResults (ofSource settings source file)
        (ofSource settings other file) ∧
      ∀ assembly, ofSource settings source file = .ok assembly →
        ∀ token ∈ (Token.read source file).tokens, ∀ name,
          (token.content = .label name → assembly.labels.contains name = true) ∧
            (token.content = .symbol name → assembly.constantValues.contains name = true ∨
              assembly.labels.contains name = true) := by
  obtain ⟨tokens, failures⟩ := recased.alike_read
  refine ⟨tokens, failures, ?_, ?_⟩
  · have related := tokens.imp fun _ _ => Correspondence.inPlace_of_sameUpToCase
    have parallel := parallel_ofSource settings related failures
    generalize ofSource settings source file = here at parallel
    generalize ofSource settings other file = there at parallel
    cases parallel with
    | ok same => exact .ok same.toSameResults
    | error alike => exact .error alike
  · intro assembly assembled token listed name
    obtain ⟨read, found, stages, rfl⟩ := (ofSource_eq_ok_iff ..).mp assembled
    have read_eq : (Token.read source file).tokens = read := by
      rw [Token.ofSource, Token.Reading.result] at found
      split at found
      · cases found
      · exact Except.ok.inj found
    rw [read_eq] at listed
    exact stages.contains_names listed name

/-- A type word, a mnemonic and a register in another case. -/
theorem letterCase_irrelevant_of_capitals :
    Token.Recased "<input>" ".data\nk num 7\n.code\nmain: out A"
        ".data\nk Num 7\n.code\nmain: OUT a" ∧
      ∃ assembly, ofSource {} ".data\nk Num 7\n.code\nmain: OUT a" "<input>" = .ok assembly ∧
        assembly.words = [19, 32768, 0, 0] ∧ assembly.labels = ⟨[("main", 0)]⟩ ∧
        assembly.constantValues = ⟨[("k", 7)]⟩ := by
  have typed : ⟨.typeWord "NUM", ⟨"<input>", 2, 3⟩⟩ ∈
      (Token.read ".data\nk num 7\n.code\nmain: out A" "<input>").tokens := by
    decide +kernel
  have opened : ⟨.mnemonic "OUT", ⟨"<input>", 4, 7⟩⟩ ∈
      (Token.read ".data\nk num 7\n.code\nmain: out A" "<input>").tokens := by
    decide +kernel
  have register : ⟨.register "A", ⟨"<input>", 4, 11⟩⟩ ∈
      (Token.read ".data\nk num 7\n.code\nmain: out A" "<input>").tokens := by
    decide +kernel
  have recased : Token.Recased "<input>" ".data\nk num 7\n.code\nmain: out A"
      ".data\nk Num 7\n.code\nmain: OUT a" := by
    refine ⟨by decide, fun position changed => ?_⟩
    have bound : position < 31 := Token.lt_length_of_getElem?_ne (by decide) changed
    have places : ∀ position : Fin 31, ".data\nk Num 7\n.code\nmain: OUT a".toList[position.val]? =
          ".data\nk num 7\n.code\nmain: out A".toList[position.val]? ∨
        (8 ≤ position.val ∧ position.val < 11) ∨ (26 ≤ position.val ∧ position.val < 29) ∨
        (30 ≤ position.val ∧ position.val < 31) := by
      decide
    obtain same | here | here | here := places ⟨position, bound⟩
    · exact absurd same changed
    · exact ⟨_, typed, ".data\nk ".toList, "NUM", by decide, by decide, rfl, here.1, here.2⟩
    · exact ⟨_, opened, ".data\nk num 7\n.code\nmain: ".toList, "OUT", by decide, by decide, rfl,
        here.1, here.2⟩
    · exact ⟨_, register, ".data\nk num 7\n.code\nmain: out ".toList, "A", by decide, by decide, rfl,
        here.1, here.2⟩
  have assembled : ofSource {} ".data\nk num 7\n.code\nmain: out A" "<input>" = .ok {
      words := [19, 32768, 0, 0]
      constants := [⟨"k", 7, 2, "<input>"⟩]
      labels := ⟨[("main", 0)]⟩
      entries := [⟨0, 4, "OUT", [19, 32768]⟩]
      sourceLines := [".data", "k num 7", ".code", "main: out A"] } := by
    decide +kernel
  obtain ⟨_, _, parallel, _⟩ := letterCase_irrelevant recased {}
  obtain ⟨assembly, made, same⟩ := parallel.of_ok assembled
  exact ⟨recased, assembly, made, same.words, same.labels, same.constants⟩

end Assembly
end WordAsm
