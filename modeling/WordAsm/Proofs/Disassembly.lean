import WordAsm.Disassembly
import WordAsm.Proofs.Assembly.Stages
import WordAsm.Proofs.Image

/-!
# Programs are disassembled into their instructions

Operands may look like opcodes, and nothing separates one instruction from the next. But the
opcode tells how many operands follow, so a sweep over the words of complete instructions stays
in step with them. The words of an assembly, or its bytes, give back its entries and a `HALT` for
every word of the terminator, and programs with the same words have the same instructions.
-/

namespace WordAsm

/-- An instruction is found under its opcode. -/
theorem Instruction.ofOpcode?_opcode
    {instruction : Instruction}
    (known : instruction ∈ all) :
    ofOpcode? instruction.opcode = some instruction := by
  revert instruction
  decide

namespace Encoder

/-- An instruction of the machine with as many operands as its signature asks for. -/
def Pending.Complete (statement : Pending) : Prop :=
  statement.instruction ∈ Instruction.all ∧
    statement.operands.length = statement.instruction.operands.length

theorem Operands.length_eq
    {addresses : Table Int}
    {kinds : List OperandKind}
    {tokens : List Token}
    {words : List Int}
    (operands : Operands addresses kinds tokens words) :
    words.length = kinds.length := by
  induction operands with
  | none => rfl
  | last => rfl
  | more _ _ _ _ hypothesis => simp [hypothesis]

theorem Statement.complete
    {addresses : Table Int}
    {tokens : List Token}
    {statement : Pending}
    (leading : Statement addresses tokens statement) :
    statement.Complete := by
  cases leading with
  | intro _ listed _ operands => exact ⟨listed, operands.length_eq⟩

/-- All instructions of code are complete. -/
theorem Statements.complete
    {addresses : Table Int}
    {tokens : List Token}
    {statements : List Pending}
    (code : Statements addresses tokens statements) :
    ∀ statement ∈ statements, statement.Complete := by
  induction code with
  | nil => simp
  | label _ _ hypothesis => exact hypothesis
  | blank _ _ hypothesis => exact hypothesis
  | line leading _ _ hypothesis =>
      rw [List.forall_mem_cons]
      exact ⟨leading.complete, hypothesis⟩
  | last leading => simpa using leading.complete

end Encoder

namespace Disassembly

open Encoder (Pending place wordsOf totalSize)

/-- An entry as a sweep finds it. -/
def Line.ofEntry (entry : Entry) : Line where
  address := entry.address
  mnemonic := entry.mnemonic
  words := entry.words

/-- A number of zero words as a sweep finds them from an address on. -/
def halts
    (address : Nat) : Nat → List Line
  | 0 => []
  | count + 1 => ⟨address, "HALT", [0]⟩ :: halts (address + 1) count

@[simp] theorem length_halts
    (address count : Nat) :
    (halts address count).length = count := by
  induction count generalizing address with
  | zero => rfl
  | succ count hypothesis => simp [halts, hypothesis]

/-- A sweep finds a complete instruction and goes on behind it. -/
theorem sweepFrom_instruction
    (address : Nat)
    (statement : Pending)
    (complete : statement.Complete)
    (rest : List Int) :
    sweepFrom address ((statement.entry address).words ++ rest) =
      (sweepFrom (address + statement.size) rest).map
        (Line.ofEntry (statement.entry address) :: ·) := by
  obtain ⟨known, filled⟩ := complete
  have enough : ¬ (statement.operands ++ rest).length < statement.operands.length := by
    simp
  have size_eq : statement.instruction.size = statement.size := by
    rw [Instruction.size, Pending.size, filled]
  rw [Pending.entry, List.cons_append, sweepFrom, Instruction.ofOpcode?_opcode known]
  dsimp only
  rw [← filled, if_neg enough, List.drop_left, List.take_left, size_eq]
  rfl

/-- A sweep stays in step with complete instructions in a row. -/
theorem sweepFrom_place
    (address : Nat)
    (statements : List Pending)
    (complete : ∀ statement ∈ statements, statement.Complete)
    (rest : List Int) :
    sweepFrom address (wordsOf statements ++ rest) =
      (sweepFrom (address + totalSize statements) rest).map
        ((place address statements).map Line.ofEntry ++ ·) := by
  induction statements generalizing address with
  | nil => simp [wordsOf, place]
  | cons statement statements hypothesis =>
      rw [List.forall_mem_cons] at complete
      have words_eq : wordsOf (statement :: statements) ++ rest =
          (statement.entry address).words ++ (wordsOf statements ++ rest) := by
        simp [wordsOf, Pending.entry]
      rw [words_eq, sweepFrom_instruction address statement complete.1,
        hypothesis (address + statement.size) complete.2, Option.map_map, Encoder.totalSize_cons,
        Nat.add_assoc]
      rfl

/-- Zero words are found as `HALT` instructions. -/
theorem sweepFrom_replicate_zero
    (address count : Nat) :
    sweepFrom address (List.replicate count 0) = some (halts address count) := by
  induction count generalizing address with
  | zero => rw [List.replicate_zero, sweepFrom, halts]
  | succ count hypothesis =>
      have zero : Instruction.ofOpcode? 0 = some ⟨"HALT", 0, []⟩ := by decide
      rw [List.replicate_succ, sweepFrom, zero]
      simp [hypothesis, halts, Instruction.size]

end Disassembly

namespace Assembly

open Disassembly (Line sweep halts)

/-- The instructions of an assembly: those of its entries, and a `HALT` for every word of the
terminator. -/
def instructions
    (assembly : Assembly)
    (settings : Settings) : List Line :=
  assembly.entries.map Line.ofEntry ++
    halts (Entry.allWords assembly.entries).length settings.terminatorWords.toNat

/-- The words of assembled tokens are swept into the instructions of the assembly. -/
theorem sweep_words
    {settings : Settings}
    {tokens : List Token}
    {assembly : Assembly}
    (assembled : ofTokens settings tokens = .ok assembly) :
    sweep assembly.words = some (assembly.instructions settings) := by
  obtain ⟨stages, rfl⟩ := (ofTokens_eq_ok_iff ..).mp assembled
  obtain ⟨_, encoded⟩ := Code.entriesOf_of_generate stages.generated
  obtain ⟨statements, code, entries_eq⟩ :=
    (Encoder.entriesOf_eq_ok_iff_statements ..).mp encoded
  have words_eq : stages.assembly.words = Encoder.wordsOf statements ++ terminator settings := by
    rw [← Encoder.allWords_place 0 statements, ← entries_eq]
    rfl
  have length_eq : (Entry.allWords stages.code.entries).length = Encoder.totalSize statements := by
    rw [entries_eq, Encoder.allWords_place, Encoder.length_wordsOf]
  rw [words_eq, sweep, Disassembly.sweepFrom_place 0 statements code.complete, terminator,
    Disassembly.sweepFrom_replicate_zero, ← entries_eq, ← length_eq, Nat.zero_add]
  rfl

/-- Words, and bytes where there are any, are disassembled into the instructions of the assembly
that they belong to. So programs with the same words have the same instructions, and with
terminators of the same size also the same entries. -/
theorem instructions_of_words
    {settings : Settings}
    {tokens : List Token}
    {assembly : Assembly}
    (assembled : ofTokens settings tokens = .ok assembly) :
    sweep assembly.words = some (assembly.instructions settings) ∧
      (∀ bytes, assembly.image = .ok bytes →
        (Image.unpack bytes).bind sweep = some (assembly.instructions settings)) ∧
      ∀ otherSettings otherTokens other, ofTokens otherSettings otherTokens = .ok other →
        other.words = assembly.words →
          other.instructions otherSettings = assembly.instructions settings ∧
            (otherSettings.terminatorWords = settings.terminatorWords →
              other.entries.map Line.ofEntry = assembly.entries.map Line.ofEntry) := by
  have swept := sweep_words assembled
  refine ⟨swept, ?_, ?_⟩
  · intro bytes packed
    rw [Image.unpack_of_pack packed, Option.bind_some, swept]
  · intro otherSettings otherTokens other otherAssembled same
    have instructions_eq : other.instructions otherSettings = assembly.instructions settings := by
      have otherSwept := sweep_words otherAssembled
      rw [same, swept] at otherSwept
      exact (Option.some.inj otherSwept).symm
    refine ⟨instructions_eq, ?_⟩
    intro equal
    apply List.append_inj_left' instructions_eq
    rw [Disassembly.length_halts, Disassembly.length_halts, equal]

/-- A jump with an operand that looks like an opcode, and what follows it. -/
def jump (following : List Token.Content) : List Token :=
  (.marker "data" :: .marker "code" :: .label "main" :: .lineEnd :: .mnemonic "jt" ::
    .number 6 :: .comma :: .symbol "main" :: .lineEnd :: following).map
      fun content => ⟨content, { line := 1 }⟩

/-- The jump before a `HALT` and two zero words, or before three zero words, has the same words
and the same instructions. -/
theorem instructions_of_words_jump :
    let halted : Assembly := {
      words := [7, 6, 0, 0, 0, 0]
      labels := ⟨[("main", 0)]⟩
      entries := [⟨0, 1, "JT", [7, 6, 0]⟩, ⟨3, 1, "HALT", [0]⟩] }
    let bare : Assembly := { halted with entries := [⟨0, 1, "JT", [7, 6, 0]⟩] }
    let found : List Line :=
      [⟨0, "JT", [7, 6, 0]⟩, ⟨3, "HALT", [0]⟩, ⟨4, "HALT", [0]⟩, ⟨5, "HALT", [0]⟩]
    ofTokens {} (jump [.mnemonic "HALT"]) = .ok halted ∧
      ofTokens { terminatorWords := 3 } (jump []) = .ok bare ∧
      sweep [7, 6, 0, 0, 0, 0] = some found ∧
      (Image.unpack [7, 0, 6, 0, 0, 0, 0, 0, 0, 0, 0, 0]).bind sweep = some found ∧
      bare.instructions { terminatorWords := 3 } = halted.instructions {} := by
  intro halted bare found
  have assembled : ofTokens {} (jump [.mnemonic "HALT"]) = .ok halted := by decide +kernel
  have other : ofTokens { terminatorWords := 3 } (jump []) = .ok bare := by decide +kernel
  obtain ⟨swept, stored, unique⟩ := instructions_of_words assembled
  exact ⟨assembled, other, swept, stored _ rfl, (unique _ _ _ other rfl).1⟩

end Assembly
end WordAsm
