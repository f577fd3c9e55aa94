import WordAsm.Proofs.Correspondence.Places
import WordAsm.Proofs.Section
import WordAsm.Proofs.Token.Resumption

/-!
# The order of the sections

A data section and a code section, each on lines of its own, make the same program in either order.
A marker at the start of a line leaves nothing of the text above but the number of the line, so each
section is read as if it stood alone, and what its tokens mean does not depend on their lines.
-/

namespace WordAsm

/-! ## Sections one below the other -/

/-- Whether some tokens are a single section: its marker and tokens without another one. -/
def Section.IsAlone
    (name : String)
    (tokens : List Token) : Prop :=
  ∃ marker body, tokens = marker :: body ∧ marker.content = .marker name ∧
    ∀ token ∈ body, token.content.isMarker = false

namespace Token

/-- From a marker at the start of a line on, a text means the same in every section. -/
theorem Context.contentsOf_of_marker
    {first second : Context}
    {pieces : List Lexeme.Piece}
    {name : String}
    {contents : List Content}
    (fresh : first.IsFresh)
    (freshOther : second.IsFresh)
    (opens : first.contentsOf pieces = .marker name :: contents) :
    second.contentsOf pieces = .marker name :: contents := by
  induction pieces generalizing first second with
  | nil => cases opens
  | cons piece pieces hypothesis =>
      obtain ⟨lexeme, text⟩ := piece
      cases lexeme with
      | blank => exact hypothesis fresh freshOther opens
      | comment => exact hypothesis fresh freshOther opens
      | lineBreak =>
          simp only [contentsOf, content?, fresh.empty, freshOther.empty, Bool.false_eq_true,
            if_false, Option.toList_none, List.nil_append] at opens ⊢
          exact hypothesis ⟨rfl, rfl⟩ ⟨rfl, rfl⟩ opens
      -- A marker leads to one context from every other one.
      | marker _ => exact opens
      | word name =>
          have word := (first.wordContent_plain name).2.2
          rw [(List.cons.inj opens).1] at word
          cases word
      | _ => cases opens

/-- Whole lines above a marker are read as if each part stood alone, except for the lines. -/
theorem exists_ofSource_append
    {first second file : String}
    {tokens others : List Token}
    {name : String}
    (whole : Text.IsWholeLines first.toList)
    (wholeOther : Text.IsWholeLines second.toList)
    (found : ofSource first file = .ok tokens)
    (foundOther : ofSource second file = .ok others)
    (alone : Section.IsAlone name others) :
    ∃ all, ofSource (first ++ second) file = .ok all ∧
      all.map (·.content) = (tokens ++ others).map (·.content) := by
  obtain ⟨pieces, cut, rfl⟩ := exists_cut_of_wholeLines whole found
  obtain ⟨later, cutOther, rfl⟩ := exists_cut_of_wholeLines wholeOther foundOther
  obtain ⟨marker, body, others_eq, marked, _⟩ := alone
  have opens : Context.contentsOf {} later = .marker name :: body.map (·.content) := by
    rw [← map_content_tokensBehind file {} [], others_eq, List.map_cons, marked]
  have before : Lexeme.Cut (second.toList ++ []) first.toList pieces :=
    cut.of_wholeLines whole _
  have cutAll : Lexeme.Cut [] (first ++ second).toList (pieces ++ later) := by
    rw [String.toList_append]
    exact before.append cutOther
  have wholeAll : Text.IsWholeLines (first ++ second).toList := by
    rw [String.toList_append]
    exact whole.append wholeOther
  refine ⟨_, ofSource_of_wholeLines cutAll wholeAll file, ?_⟩
  rw [map_content_tokensBehind, Context.contentsOf_append, List.map_append,
    map_content_tokensBehind, map_content_tokensBehind, opens,
    Context.contentsOf_of_marker ⟨rfl, rfl⟩ (Context.isFresh_afterAll cut whole) opens]

end Token

/-! ## Layouts -/

namespace Section

/-- A single section stays one in front of others. -/
theorem IsAlone.exists_divide
    {name : String}
    {tokens : List Token}
    (alone : IsAlone name tokens) :
    ∃ part : Section, part.name = name ∧ ∀ rest, (divide rest).1 = [] →
      divide (tokens ++ rest) = ([], part :: (divide rest).2) := by
  obtain ⟨marker, body, rfl, marked, plain⟩ := alone
  refine ⟨⟨name, marker.location.line, trim body⟩, rfl, ?_⟩
  intro rest opened
  exact divide_section marked plain opened

theorem IsAlone.exists_divide_pair
    {name other : String}
    {first second : List Token}
    (alone : IsAlone name first)
    (aloneOther : IsAlone other second) :
    ∃ part next : Section, part.name = name ∧ next.name = other ∧
      divide (first ++ second) = ([], [part, next]) ∧
      divide (second ++ first) = ([], [next, part]) := by
  obtain ⟨part, named, divided⟩ := alone.exists_divide
  obtain ⟨next, namedOther, dividedOther⟩ := aloneOther.exists_divide
  have single : divide first = ([], [part]) := by
    have divided := divided [] rfl
    rwa [List.append_nil] at divided
  have singleOther : divide second = ([], [next]) := by
    have divided := dividedOther [] rfl
    rwa [List.append_nil] at divided
  refine ⟨part, next, named, namedOther, ?_, ?_⟩
  · rw [divided second (by rw [singleOther]), singleOther]
  · rw [dividedOther first (by rw [single]), single]

end Section

namespace Assembly

/-- Nothing is made of the order of the sections. -/
theorem ofTokens_in_either_order
    {data code : List Token}
    (settings : Settings)
    (dataAlone : Section.IsAlone "data" data)
    (codeAlone : Section.IsAlone "code" code) :
    ofTokens settings (data ++ code) = ofTokens settings (code ++ data) := by
  obtain ⟨dataPart, codePart, dataName, codeName, dataFirst, codeFirst⟩ :=
    dataAlone.exists_divide_pair codeAlone
  have layout : Layout.ofTokens (data ++ code) = .ok ⟨dataPart, codePart, true⟩ :=
    (Layout.ofTokens_eq_ok_iff ..).mpr ⟨dataFirst, dataName, codeName⟩
  have swapped : Layout.ofTokens (code ++ data) = .ok ⟨dataPart, codePart, false⟩ :=
    (Layout.ofTokens_eq_ok_iff ..).mpr ⟨codeFirst, dataName, codeName⟩
  rw [ofTokens, ofTokens, layout, swapped]
  rfl

/-- A data section and a code section, each on whole lines that can be read, are assembled alike in
either order: into the same words with the same labels and constants, or with failures of the same
kind. -/
theorem agree_in_either_order
    {data code file : String}
    {dataTokens codeTokens : List Token}
    (settings : Settings)
    (dataLines : Text.IsWholeLines data.toList)
    (codeLines : Text.IsWholeLines code.toList)
    (readData : Token.ofSource data file = .ok dataTokens)
    (readCode : Token.ofSource code file = .ok codeTokens)
    (dataAlone : Section.IsAlone "data" dataTokens)
    (codeAlone : Section.IsAlone "code" codeTokens) :
    Agree (ofSource settings (data ++ code) file) (ofSource settings (code ++ data) file) := by
  obtain ⟨tokens, read, contents⟩ :=
    Token.exists_ofSource_append dataLines codeLines readData readCode codeAlone
  obtain ⟨others, readOther, contentsOther⟩ :=
    Token.exists_ofSource_append codeLines dataLines readCode readData dataAlone
  apply Agree.ofSource read readOther
  have there : Agree (ofTokens settings tokens) (ofTokens settings (dataTokens ++ codeTokens)) :=
    agree_ofTokens settings contents
  have back : Agree (ofTokens settings (codeTokens ++ dataTokens)) (ofTokens settings others) :=
    agree_ofTokens settings contentsOther.symm
  rw [ofTokens_in_either_order settings dataAlone codeAlone] at there
  exact there.trans back

/-- A program whose code section comes first, and one that lacks an operand. -/
theorem agree_in_either_order_of_codeFirst :
    (∃ assembly,
      ofSource {} (".code\nmain: OUT k\n" ++ ".data\nk NUM 7\n") "<input>" = .ok assembly ∧
      assembly.words = [19, 7, 0, 0] ∧ assembly.labels = ⟨[("main", 0)]⟩ ∧
      assembly.constantValues = ⟨[("k", 7)]⟩) ∧
    ∃ failure,
      ofSource {} (".code\nmain: OUT\n" ++ ".data\nk NUM 7\n") "<input>" = .error failure ∧
      failure.kind = .fault .tooFewOperands := by
  have readData : Token.ofSource ".data\nk NUM 7\n" "<input>" = .ok [
      ⟨.marker "data", ⟨"<input>", 1, 1⟩⟩, ⟨.lineEnd, ⟨"<input>", 1, 6⟩⟩,
      ⟨.symbol "k", ⟨"<input>", 2, 1⟩⟩, ⟨.typeWord "NUM", ⟨"<input>", 2, 3⟩⟩,
      ⟨.number 7, ⟨"<input>", 2, 7⟩⟩, ⟨.lineEnd, ⟨"<input>", 2, 8⟩⟩] := by
    decide +kernel
  have dataLines : Text.IsWholeLines ".data\nk NUM 7\n".toList :=
    .inr ⟨".data\nk NUM 7".toList, by decide⟩
  constructor
  · have readCode : Token.ofSource ".code\nmain: OUT k\n" "<input>" = .ok [
        ⟨.marker "code", ⟨"<input>", 1, 1⟩⟩, ⟨.lineEnd, ⟨"<input>", 1, 6⟩⟩,
        ⟨.label "main", ⟨"<input>", 2, 1⟩⟩, ⟨.mnemonic "OUT", ⟨"<input>", 2, 7⟩⟩,
        ⟨.symbol "k", ⟨"<input>", 2, 11⟩⟩, ⟨.lineEnd, ⟨"<input>", 2, 12⟩⟩] := by
      decide +kernel
    have agree := agree_in_either_order {} dataLines
      (.inr ⟨".code\nmain: OUT k".toList, by decide⟩) readData readCode
      ⟨_, _, rfl, rfl, by decide⟩ ⟨_, _, rfl, rfl, by decide⟩
    have assembled : ofSource {} ".data\nk NUM 7\n.code\nmain: OUT k\n" "<input>" = .ok {
        words := [19, 7, 0, 0]
        constants := [⟨"k", 7, 2, "<input>"⟩]
        labels := ⟨[("main", 0)]⟩
        entries := [⟨0, 4, "OUT", [19, 7]⟩]
        sourceLines := [".data", "k NUM 7", ".code", "main: OUT k"] } := by
      decide +kernel
    obtain ⟨assembly, made, same⟩ := agree.of_ok assembled
    exact ⟨assembly, made, same.words, same.labels, same.constants⟩
  · have readCode : Token.ofSource ".code\nmain: OUT\n" "<input>" = .ok [
        ⟨.marker "code", ⟨"<input>", 1, 1⟩⟩, ⟨.lineEnd, ⟨"<input>", 1, 6⟩⟩,
        ⟨.label "main", ⟨"<input>", 2, 1⟩⟩, ⟨.mnemonic "OUT", ⟨"<input>", 2, 7⟩⟩,
        ⟨.lineEnd, ⟨"<input>", 2, 10⟩⟩] := by
      decide +kernel
    have agree := agree_in_either_order {} dataLines
      (.inr ⟨".code\nmain: OUT".toList, by decide⟩) readData readCode
      ⟨_, _, rfl, rfl, by decide⟩ ⟨_, _, rfl, rfl, by decide⟩
    have failed : ofSource {} ".data\nk NUM 7\n.code\nmain: OUT\n" "<input>" =
        .error (.program {
          cause := .tooFewOperands "OUT" 1 0
          location := some { line := 4, column := 10 } }) := by
      decide +kernel
    exact agree.of_error failed

end Assembly
end WordAsm
