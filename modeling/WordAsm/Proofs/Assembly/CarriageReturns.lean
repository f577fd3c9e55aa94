import WordAsm.Proofs.Correspondence.Places
import WordAsm.Proofs.Session
import WordAsm.Proofs.Token.CarriageReturns

/-!
# Programs with carriage returns

A source may be handed over as it is, with a carriage return in front of every line feed, or be read
from a file, which takes them out. A program that can be assembled with carriage returns has the
same words, labels, constants and listing without them, and under any name of its file.
-/

namespace WordAsm

namespace Correspondence

/-- Where a line ends is no matter of its tokens. -/
theorem inPlace_of_sameButLineEnd
    {first second : Token}
    (same : Token.SameButLineEnd first second) :
    inPlace.Tokens second first := by
  cases same with
  | same => exact ⟨contents_refl rfl _, rfl⟩
  | lineEnd => exact ⟨.lineEnd, rfl⟩

/-- Tokens stand on the same lines whatever the name of their file is. -/
theorem exists_inPlace_renamed
    {source file : String}
    {tokens : List Token}
    (read : Token.ofSource source file = .ok tokens)
    (other : String) :
    ∃ others, Token.ofSource source other = .ok others ∧
      List.Forall₂ inPlace.Tokens tokens others := by
  obtain ⟨pieces, cut, rfl⟩ := (Token.ofSource_eq_ok_iff ..).mp read
  refine ⟨_, (Token.ofSource_eq_ok_iff ..).mpr ⟨pieces, cut, rfl⟩, ?_⟩
  rw [List.forall₂_map_left_iff, List.forall₂_map_right_iff, List.forall₂_same]
  exact fun span _ => ⟨contents_refl rfl _, rfl⟩

end Correspondence

namespace Assembly

/-- The same results with the same listing. -/
structure SameProducts (first second : Assembly) : Prop extends SameResults first second where
  listing : second.listing = first.listing

theorem SameOnLines.sameProducts
    {first second : Assembly}
    (same : SameOnLines first second)
    (lines : second.sourceLines = first.sourceLines) :
    SameProducts first second := by
  refine ⟨same.toSameResults, ?_⟩
  rw [listing, listing, same.entries, same.labels, lines]

theorem sourceLines_of_ofSource
    {settings : Settings}
    {source file : String}
    {assembly : Assembly}
    (made : ofSource settings source file = .ok assembly) :
    assembly.sourceLines = Text.lines source := by
  obtain ⟨_, _, stages, rfl⟩ := (ofSource_eq_ok_iff ..).mp made
  rfl

/-- A program that can be assembled with carriage returns can be assembled without them, from a file
of any name. -/
theorem exists_sameProducts_of_withReturns
    {settings : Settings}
    {source file : String}
    {assembly : Assembly}
    (plain : '\r' ∉ source.toList)
    (made : ofSource settings (Text.withReturns source) file = .ok assembly)
    (other : String) :
    ∃ partner, ofSource settings source other = .ok partner ∧ SameProducts assembly partner := by
  obtain ⟨tokens, read, _⟩ := (ofSource_eq_ok_iff ..).mp made
  obtain ⟨middles, readMiddle, sameTokens⟩ := Token.exists_ofSource_of_withReturns plain read
  obtain ⟨others, readOther, renamed⟩ := Correspondence.exists_inPlace_renamed readMiddle other
  have here : List.Forall₂ Correspondence.inPlace.Tokens tokens middles :=
    sameTokens.flip.imp fun _ _ => Correspondence.inPlace_of_sameButLineEnd
  obtain ⟨middle, madeMiddle, sameMiddle⟩ := (parallel_of_read read readMiddle here).of_ok made
  obtain ⟨partner, madeOther, same⟩ :=
    (parallel_of_read readMiddle readOther renamed).of_ok madeMiddle
  refine ⟨partner, madeOther, (sameMiddle.trans same).sameProducts ?_⟩
  rw [sourceLines_of_ofSource made, sourceLines_of_ofSource madeOther, Text.lines_withReturns plain]

end Assembly

/-! ## Files -/

section

variable {σ : Type} [Files (StateM σ)]

/-- The text of a file is that of its bytes. -/
theorem Files.readText_of_read
    {path : String}
    {store : σ}
    {bytes : List UInt8}
    (found : ((Files.read (Path.normalize path) : StateM σ _) store).1 = .ok bytes) :
    ((readText path : StateM σ _) store).1 = textOf bytes := by
  cases answered : (Files.read (Path.normalize path) : StateM σ _) store with
  | mk answer later =>
      rw [answered] at found
      obtain rfl : answer = .ok bytes := found
      simp only [readText, bind, StateT.bind]
      rw [answered]
      rfl

namespace Workbench

/-- A file with carriage returns is assembled as its text without them. -/
theorem assembleFile_of_withReturns
    {source path : String}
    {store : σ}
    (plain : '\r' ∉ source.toList)
    (found : ((Files.read (Path.normalize path) : StateM σ _) store).1 =
      .ok (Text.Utf8.encode (Text.withReturns source)))
    (bench : Workbench) :
    ((bench.assembleFile path : StateM σ _) store).1 =
      bench.assembleSource source (Path.normalize path) := by
  change bench.assembleText path ((Files.readText path : StateM σ _) store).1 = _
  rw [Files.readText_of_read found, Files.textOf_withReturns plain, assembleText]

/-- A source that is read with carriage returns is read as the same tokens without them, but for the
columns of the line ends. If a workbench assembles it with carriage returns, then so it does without
them, and from every file that holds them, with the same words, labels, constants and listing. -/
theorem carriageReturns_irrelevant
    {source : String}
    (plain : '\r' ∉ source.toList)
    (bench : Workbench)
    (file : String) :
    (∀ tokens, Token.ofSource (Text.withReturns source) file = .ok tokens →
      ∃ others, Token.ofSource source file = .ok others ∧
        List.Forall₂ Token.SameButLineEnd others tokens) ∧
      ∀ words made, bench.assembleSource (Text.withReturns source) file = (.ok words, made) →
        (∃ later, bench.assembleSource source file = (.ok words, later) ∧
          made.assembly.SameProducts later.assembly) ∧
        ∀ (path : String) (store : σ),
          ((Files.read (Path.normalize path) : StateM σ _) store).1 =
              .ok (Text.Utf8.encode (Text.withReturns source)) →
            ∃ later, ((bench.assembleFile path : StateM σ _) store).1 = (.ok words, later) ∧
              made.assembly.SameProducts later.assembly := by
  refine ⟨fun tokens => Token.exists_ofSource_of_withReturns plain, fun words made answered => ?_⟩
  obtain ⟨assembly, assembled, rfl, rfl⟩ := assembleSource_eq_ok_iff.mp answered
  have again (other : String) : ∃ later, bench.assembleSource source other =
      (.ok assembly.words, later) ∧ assembly.SameProducts later.assembly := by
    obtain ⟨partner, madeOther, same⟩ :=
      Assembly.exists_sameProducts_of_withReturns plain assembled other
    exact ⟨⟨bench.settings, partner⟩,
      assembleSource_eq_ok_iff.mpr ⟨partner, madeOther, same.words, rfl⟩, same⟩
  refine ⟨again file, fun path store found => ?_⟩
  rw [assembleFile_of_withReturns plain found]
  exact again (Path.normalize path)

/-- Carriage returns behind a type word, a character and a comment, and a file that holds them. -/
theorem carriageReturns_irrelevant_of_letter :
    '\r' ∉ ".data\nk CHR 'a'\n.code\nmain: OUT k ; a\n".toList ∧
      ∃ made later : Workbench,
        assembleSource {} ".data\r\nk CHR 'a'\r\n.code\r\nmain: OUT k ; a\r\n" "<input>" =
            (.ok [19, 97, 0, 0], made) ∧
          ((assembleFile {} "./letter.asm" : DiskM _) {
            files := [(["letter.asm"],
              Text.Utf8.encode ".data\r\nk CHR 'a'\r\n.code\r\nmain: OUT k ; a\r\n")] }).1 =
            (.ok [19, 97, 0, 0], later) ∧
          made.assembly.SameProducts later.assembly := by
  have plain : '\r' ∉ ".data\nk CHR 'a'\n.code\nmain: OUT k ; a\n".toList := by decide
  have returned : Text.withReturns ".data\nk CHR 'a'\n.code\nmain: OUT k ; a\n" =
      ".data\r\nk CHR 'a'\r\n.code\r\nmain: OUT k ; a\r\n" := by decide
  obtain ⟨made, answered⟩ : ∃ made,
      assembleSource {} ".data\r\nk CHR 'a'\r\n.code\r\nmain: OUT k ; a\r\n" "<input>" =
        (.ok [19, 97, 0, 0], made) :=
    ⟨_, Prod.ext (by decide +kernel) rfl⟩
  obtain ⟨_, assembled⟩ := carriageReturns_irrelevant (σ := Disk) plain {} "<input>"
  rw [returned] at assembled
  obtain ⟨later, answeredFile, same⟩ := (assembled _ made answered).2 "./letter.asm" {
    files := [(["letter.asm"],
      Text.Utf8.encode ".data\r\nk CHR 'a'\r\n.code\r\nmain: OUT k ; a\r\n")] }
    (by decide +kernel)
  exact ⟨plain, made, later, answered, answeredFile, same⟩

end Workbench
end
end WordAsm
