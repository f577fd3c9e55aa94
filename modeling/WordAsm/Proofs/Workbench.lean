import Mathlib.Data.List.Basic
import WordAsm.Disk
import WordAsm.Workbench

/-!
# What a failed request leaves

A workbench is asked to assemble tokens, a source or a file. A request that fails after its tokens
are at hand leaves no results. Where the file or the source cannot be read, the results of the
program before stay as they were.
-/

namespace WordAsm

/-- What a workbench can be asked to assemble: tokens, a source with the name of its file, or the
file that a path names. -/
inductive Request
  | ofTokens (tokens : List Token)
  | ofSource (text file : String)
  | ofFile (path : String)

namespace Assembly

/-- An assembly without results: no words, no symbols, no bytes, and a listing without rows. -/
structure IsBlank (assembly : Assembly) : Prop where
  words : assembly.words = []
  labels : assembly.labels.entries = []
  constants : assembly.constantValues.entries = []
  symbols : assembly.symbols.entries = []
  image : assembly.image = .ok []
  entries : assembly.entries = []
  listing : assembly.listing = Listing.text [] {} []

/-- The assembly of a new workbench has no results. -/
theorem isBlank_empty : IsBlank {} :=
  ⟨rfl, rfl, rfl, rfl, rfl, rfl, rfl⟩

end Assembly

section

variable {σ : Type} [Files (StateM σ)]

/-- The tokens that a request brings, where its file and its source can be read. -/
def Request.tokens? : Request → StateM σ (Except Failure (List Token))
  | .ofTokens tokens => return .ok tokens
  | .ofSource text file => return Token.ofSource text file
  | .ofFile path => do
      let text ← Files.readText path
      return text >>= fun text => Token.ofSource text (Path.normalize path)

namespace Workbench

/-- Answer a request with the words of its program, given a file store. -/
def answer
    (bench : Workbench) : Request → StateM σ (Except Failure (List Int) × Workbench)
  | .ofTokens tokens => return bench.assembleTokens tokens
  | .ofSource text file => return bench.assembleSource text file
  | .ofFile path => bench.assembleFile path

/-- The text of a file goes the way of a source. -/
theorem answer_ofFile
    (bench : Workbench)
    (path : String)
    (store : σ) :
    (bench.answer (.ofFile path) store).1 =
      bench.assembleText path ((Files.readText path : StateM σ _) store).1 := rfl

theorem tokens?_ofFile
    (path : String)
    (store : σ) :
    ((Request.ofFile path).tokens? store).1 =
      (((Files.readText path : StateM σ _) store).1 >>= fun text =>
        Token.ofSource text (Path.normalize path)) := rfl

theorem assembleSource_of_unread
    (bench : Workbench)
    {source file : String}
    {failure : Failure}
    (unread : Token.ofSource source file = .error failure) :
    bench.assembleSource source file = (.error failure, bench) := by
  rw [assembleSource, unread]

/-- A request whose tokens cannot be read changes nothing. -/
theorem answer_of_unread
    (bench : Workbench)
    (request : Request)
    (store : σ)
    {failure : Failure}
    (unread : (request.tokens? store).1 = .error failure) :
    (bench.answer request store).1 = (.error failure, bench) := by
  cases request with
  | ofTokens tokens => cases unread
  | ofSource text file => exact bench.assembleSource_of_unread unread
  | ofFile path =>
      rw [tokens?_ofFile] at unread
      rw [answer_ofFile]
      cases found : ((Files.readText path : StateM σ _) store).1 with
      | error fault =>
          rw [found] at unread
          cases unread
          rfl
      | ok text =>
          rw [found] at unread
          exact bench.assembleSource_of_unread unread

/-- Results are replaced, and a failure leaves none. -/
theorem replace_eq_error
    {bench later : Workbench}
    {outcome : Except Failure Assembly}
    {failure : Failure}
    (failed : bench.replace outcome = (.error failure, later)) :
    outcome = .error failure ∧ later = { bench with assembly := {} } := by
  cases outcome with
  | ok assembly => cases failed
  | error cause =>
      cases failed
      exact ⟨rfl, rfl⟩

theorem assembleSource_of_read
    {bench later : Workbench}
    {source file : String}
    {tokens : List Token}
    {failure : Failure}
    (read : Token.ofSource source file = .ok tokens)
    (failed : bench.assembleSource source file = (.error failure, later)) :
    Assembly.ofTokens bench.settings tokens = .error failure ∧
      later = { bench with assembly := {} } := by
  rw [assembleSource, read] at failed
  obtain ⟨outcome, cleared⟩ := replace_eq_error failed
  refine ⟨?_, cleared⟩
  cases assembled : Assembly.ofTokens bench.settings tokens with
  | ok assembly =>
      rw [assembled] at outcome
      cases outcome
  | error cause =>
      rw [assembled] at outcome
      cases outcome
      rfl

/-- A request that fails with its tokens at hand fails in a stage of the assembly and leaves no
results. -/
theorem eq_of_answer_of_read
    {bench later : Workbench}
    {request : Request}
    {store : σ}
    {tokens : List Token}
    {failure : Failure}
    (read : (request.tokens? store).1 = .ok tokens)
    (failed : (bench.answer request store).1 = (.error failure, later)) :
    Assembly.ofTokens bench.settings tokens = .error failure ∧
      later = { bench with assembly := {} } := by
  cases request with
  | ofTokens others =>
      cases read
      exact replace_eq_error failed
  | ofSource text file => exact assembleSource_of_read read failed
  | ofFile path =>
      rw [tokens?_ofFile] at read
      rw [answer_ofFile] at failed
      cases found : ((Files.readText path : StateM σ _) store).1 with
      | error fault =>
          rw [found] at read
          cases read
      | ok text =>
          rw [found] at read failed
          exact assembleSource_of_read read failed

/-- A failed request leaves no results where its tokens were at hand, and all results of the
program before where its file or its source could not be read. So no results are left exactly in
the first case, or if there were none before. -/
theorem isBlank_of_failed_iff
    {bench later : Workbench}
    {request : Request}
    {store : σ}
    {failure : Failure}
    (failed : (bench.answer request store).1 = (.error failure, later)) :
    later.settings = bench.settings ∧
      (∀ tokens, (request.tokens? store).1 = .ok tokens →
        Assembly.ofTokens bench.settings tokens = .error failure ∧ later.assembly.IsBlank) ∧
      (∀ fault, (request.tokens? store).1 = .error fault →
        fault = failure ∧ later.assembly = bench.assembly) ∧
      (later.assembly.IsBlank ↔
        (∃ tokens, (request.tokens? store).1 = .ok tokens) ∨ bench.assembly.IsBlank) := by
  cases outcome : (request.tokens? store).1 with
  | ok tokens =>
      obtain ⟨assembled, cleared⟩ := eq_of_answer_of_read outcome failed
      subst cleared
      simp [assembled, Assembly.isBlank_empty]
  | error fault =>
      rw [bench.answer_of_unread request store outcome] at failed
      cases failed
      simp

/-- After a program, a source without a code section leaves nothing, but a source with a stray
character or a file that does not exist leaves the program's words. -/
theorem isBlank_of_failed_after_program :
    let bench : Workbench := { assembly := {
      words := [21, 0, 0]
      labels := ⟨[("main", 0)]⟩
      entries := [⟨0, 3, "NOOP", [21]⟩]
      sourceLines := [".data", ".code", "main: NOOP"] } }
    let answerOf (bench : Workbench) (request : Request) :=
      (bench.answer request ({} : Disk)).1
    answerOf {} (.ofSource ".data\n.code\nmain: NOOP" "<input>") = (.ok [21, 0, 0], bench) ∧
      (∃ failure later, answerOf bench (.ofSource ".data" "<input>") = (.error failure, later) ∧
        later.assembly.IsBlank) ∧
      (∃ failure later, answerOf bench (.ofSource "?" "<input>") = (.error failure, later) ∧
        later.assembly = bench.assembly ∧ ¬ later.assembly.IsBlank) ∧
      ∃ failure later, answerOf bench (.ofFile "a.asm") = (.error failure, later) ∧
        later.assembly = bench.assembly ∧ ¬ later.assembly.IsBlank := by
  intro bench answerOf
  have kept : ¬ bench.assembly.IsBlank := by
    intro blank
    cases blank.words
  have incomplete : answerOf bench (.ofSource ".data" "<input>") =
      (.error (.overall (.missingSection "code")), {}) := by
    decide +kernel
  have stray : answerOf bench (.ofSource "?" "<input>") =
      (.error (.ofFault {
        cause := .unexpectedCharacter '?'
        location := some { line := 1, column := 2 }
        sourceLine := some "?" }), bench) := by
    decide +kernel
  have missing : answerOf bench (.ofFile "a.asm") =
      (.error (.file .notFound "a.asm"), bench) := by
    decide +kernel
  have read : Token.ofSource ".data" "<input>" =
      .ok [⟨.marker "data", ⟨"<input>", 1, 1⟩⟩, ⟨.lineEnd, ⟨"<input>", 1, 6⟩⟩] := by
    decide +kernel
  have cleared := (isBlank_of_failed_iff incomplete).2.1 _ read
  have unfound := (isBlank_of_failed_iff missing).2.2.1 _ rfl
  exact ⟨by decide +kernel, ⟨_, _, incomplete, cleared.2⟩, ⟨_, _, stray, rfl, kept⟩,
    ⟨_, _, missing, unfound.2, kept⟩⟩

end Workbench

end

end WordAsm
