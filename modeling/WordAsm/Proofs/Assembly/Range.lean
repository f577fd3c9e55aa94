import WordAsm.Proofs.Assembly.Emission
import WordAsm.Proofs.Failure
import WordAsm.Proofs.Image

/-!
# Which words a program holds

Opcodes, numbers, characters, constants and registers make words up to 32775. Only the address of
a label can be larger, and it counts at most all words of the code. So a program can be stored
unless an operand refers to a label with more than 65535 words before it, and then it is the first
such operand that is refused.
-/

namespace WordAsm

/-- Smaller numbers have no more digits. -/
theorem Text.isWritable_of_le
    {n limit : Int}
    (lower : 0 ≤ n)
    (upper : n ≤ limit)
    (writable : isWritable limit = true) :
    isWritable n = true := by
  have base : 1 < 10 := by decide
  have positive : 0 < decimalLimit := by decide
  rw [isWritable, decide_eq_true_iff, Nat.length_toDigits_le_iff base positive] at writable ⊢
  omega

namespace Assembly

/-- Whether a content refers to a label with an address beyond the words of the machine. -/
def RefersBeyond
    (labels : Table Int)
    (content : Token.Content)
    (address : Int) : Prop :=
  ∃ name, content = .symbol name ∧ labels.get? name = some address ∧ 65535 < address

/-- The first token that refers to a label beyond the words of the machine, with the number of
words before it. -/
def FirstBeyond
    (labels : Table Int)
    (tokens : List Token)
    (index : Nat)
    (address : Int) : Prop :=
  ∃ front token back, tokens = front ++ token :: back ∧
    front.countP Token.takesWord = index ∧ RefersBeyond labels token.content address ∧
    ∀ other ∈ front, ∀ far, ¬ RefersBeyond labels other.content far

theorem RefersBeyond.takesWord
    {labels : Table Int}
    {token : Token}
    {address : Int}
    (refers : RefersBeyond labels token.content address) :
    token.takesWord = true := by
  obtain ⟨name, content, _⟩ := refers
  rw [Token.takesWord, content]
  rfl

namespace Stages

variable {settings : Settings} {tokens : List Token}

/-- A label is bound to at most the number of all words. -/
theorem address_bounds
    (stages : Stages settings tokens)
    {name : String}
    {address : Int}
    (bound : stages.code.labels.get? name = some address) :
    0 ≤ address ∧ address ≤ stages.code.words.length := by
  obtain ⟨labels_eq, _⟩ := Code.entriesOf_of_generate stages.generated
  have length_eq : stages.resolved.countP Token.takesWord = stages.code.words.length := by
    rw [List.countP_eq_length_filter]
    exact stages.encodedAll.length_eq
  rw [labels_eq] at bound
  obtain ⟨before, token, after, resolved_eq, _, rfl⟩ := Address.exists_label_of_table_get? bound
  rw [resolved_eq, List.countP_append, ← Address.extent_eq_countP] at length_eq
  omega

/-- Only the address of a label is beyond the registers. -/
theorem word_bounds
    (stages : Stages settings tokens)
    {content : Token.Content}
    {word : Int}
    (emits : Emits stages.constants stages.code.labels content word) :
    0 ≤ word ∧ (word ≤ 32775 ∨
      ∃ name, content = .symbol name ∧ stages.code.labels.get? name = some word) := by
  cases emits with
  | @opcode _ instruction listed =>
      have small : ∀ instruction ∈ Instruction.all, instruction.opcode ≤ 21 := by decide
      have bound := small instruction listed
      omega
  | number value => omega
  | character _ small => omega
  | register found =>
      have bounds := Machine.registerAddress?_bounds found
      omega
  | @constant constant listed =>
      obtain ⟨declared, _⟩ := (Constant.compile_eq_ok_iff ..).mp stages.compiled
      have bounds := declared.value_bounds constant listed
      omega
  | label found => exact ⟨(stages.address_bounds found).1, .inr ⟨_, rfl, found⟩⟩

/-- What stands for a word of the machine is no such reference, and a reference stands for its
address. -/
theorem refersBeyond_iff
    (stages : Stages settings tokens)
    {content : Token.Content}
    {word : Int}
    (emits : Emits stages.constants stages.code.labels content word)
    (address : Int) :
    RefersBeyond stages.code.labels content address ↔
      Image.isWord word = false ∧ word = address := by
  rw [Bool.eq_false_iff, ne_eq, Image.isWord_iff]
  constructor
  · rintro ⟨name, rfl, bound, far⟩
    cases emits with
    | constant listed =>
        exact absurd (List.mem_map_of_mem listed) (stages.not_mem_constants_of_label bound)
    | label found =>
        cases found.symm.trans bound
        exact ⟨by omega, rfl⟩
  · rintro ⟨excess, rfl⟩
    obtain ⟨lower, upper | ⟨name, rfl, bound⟩⟩ := stages.word_bounds emits
    · omega
    · exact ⟨name, rfl, bound, by omega⟩

/-- The first word that cannot be stored comes from the first reference beyond the words of the
machine. -/
theorem firstExcess_words_iff
    (stages : Stages settings tokens)
    (word : Int)
    (index : Nat) :
    Image.firstExcess stages.code.words = some (word, index) ↔
      FirstBeyond stages.code.labels stages.layout.code.tokens index word := by
  have emits := stages.emits
  rw [Image.firstExcess_eq_some_iff]
  -- Words and tokens are split together at the offender. Tokens that take no word stand between
  -- the others, but cannot refer to a label.
  constructor
  · rintro ⟨front, back, words_eq, rfl, excess, earlier⟩
    rw [words_eq] at emits
    obtain ⟨before, token, after, kept, related, here⟩ := Outcome.forall₂_split emits
    obtain ⟨first, second, tokens_eq, rfl, second_eq⟩ := List.filter_eq_append_iff.mp kept
    obtain ⟨gap, rest, rfl, wordless, _⟩ := List.filter_eq_cons_iff.mp second_eq
    refine ⟨first ++ gap, token, rest, ?_, ?_, (stages.refersBeyond_iff here word).mpr
      ⟨excess, rfl⟩, ?_⟩
    · rw [tokens_eq, List.append_assoc]
    · rw [List.countP_append, List.countP_eq_zero.mpr wordless, List.countP_eq_length_filter]
      exact related.length_eq
    · intro other listed far refers
      obtain listed | listed := List.mem_append.mp listed
      · have taken := List.mem_filter.mpr ⟨listed, refers.takesWord⟩
        obtain ⟨fitting, among, made⟩ := Outcome.exists_of_forall₂_of_mem related taken
        have excess := ((stages.refersBeyond_iff made far).mp refers).1
        rw [earlier fitting among] at excess
        cases excess
      · exact wordless other listed refers.takesWord
  · rintro ⟨front, token, back, tokens_eq, rfl, refers, earlier⟩
    rw [tokens_eq, List.filter_append, List.filter_cons_of_pos refers.takesWord] at emits
    obtain ⟨before, made, after, words_eq, related, here⟩ := Outcome.forall₂_split emits.flip
    obtain ⟨excess, rfl⟩ := (stages.refersBeyond_iff here word).mp refers
    refine ⟨before, after, words_eq, ?_, excess, ?_⟩
    · rw [List.countP_eq_length_filter]
      exact related.length_eq
    · intro fitting listed
      obtain ⟨other, among, made⟩ := Outcome.exists_of_forall₂_of_mem related listed
      by_contra excess
      exact earlier other (List.mem_of_mem_filter among) fitting
        ((stages.refersBeyond_iff made fitting).mpr ⟨Bool.eq_false_iff.mpr excess, rfl⟩)

end Stages

/-- The zero words behind the code can be stored. -/
theorem isWord_of_mem_terminator
    {settings : Settings}
    {word : Int}
    (listed : word ∈ terminator settings) :
    Image.isWord word = true := by
  rw [List.eq_of_mem_replicate listed]
  rfl

/-- Where some token refers beyond the words of the machine, one of them is the first. -/
theorem exists_firstBeyond_iff
    (labels : Table Int)
    (tokens : List Token) :
    (∃ index address, FirstBeyond labels tokens index address) ↔
      ∃ token ∈ tokens, ∃ address, RefersBeyond labels token.content address := by
  constructor
  · rintro ⟨_, address, front, token, back, rfl, _, refers, _⟩
    exact ⟨token, List.mem_append_right _ List.mem_cons_self, address, refers⟩
  · rintro ⟨token, listed, address, refers⟩
    induction tokens with
    | nil => cases listed
    | cons first tokens hypothesis =>
        by_cases here : ∃ far, RefersBeyond labels first.content far
        · obtain ⟨far, refers⟩ := here
          refine ⟨0, far, [], first, tokens, rfl, rfl, refers, ?_⟩
          intro other listed
          cases listed
        · obtain rfl | listed := List.mem_cons.mp listed
          · exact absurd ⟨address, refers⟩ here
          · obtain ⟨_, far, front, found, back, rfl, _, refers, earlier⟩ := hypothesis listed
            refine ⟨_, far, first :: front, found, back, rfl, rfl, refers, ?_⟩
            rw [List.forall_mem_cons]
            exact ⟨fun far refers => here ⟨far, refers⟩, earlier⟩

/-- Reports of the first reference can be written as long as the number of words can. -/
theorem Stages.isWritable_of_firstBeyond
    {settings : Settings}
    {tokens : List Token}
    (stages : Stages settings tokens)
    {index : Nat}
    {address : Int}
    (first : FirstBeyond stages.code.labels stages.layout.code.tokens index address)
    (writable : Text.isWritable stages.code.words.length = true) :
    (Cause.outputRange index address).isWritable = true := by
  have within : index ≤ stages.code.words.length := by
    have excess := (stages.firstExcess_words_iff address index).mpr first
    obtain ⟨front, back, words_eq, rfl, _⟩ := (Image.firstExcess_eq_some_iff ..).mp excess
    rw [words_eq]
    exact (List.prefix_append _ _).length_le
  obtain ⟨_, token, _, _, _, ⟨name, _, bound, _⟩, _⟩ := first
  obtain ⟨lower, upper⟩ := stages.address_bounds bound
  rw [Cause.isWritable, Bool.and_eq_true]
  exact ⟨Text.isWritable_of_le (by omega) (by omega) writable,
    Text.isWritable_of_le lower upper writable⟩

/-- In every assembled program the words are not negative, and those above 32775 are addresses of
labels, which count at most the words of the code. Storing the program fails exactly when some
operand refers to a label with more than 65535 words before it. Then the first such operand is
reported, with the number of words before it. -/
theorem image_of_ofTokens
    {settings : Settings}
    {tokens : List Token}
    {assembly : Assembly}
    (assembled : ofTokens settings tokens = .ok assembly) :
    ∃ layout code, Layout.ofTokens tokens = .ok layout ∧
      assembly.words = code ++ terminator settings ∧ code = Entry.allWords assembly.entries ∧
      (∀ word ∈ assembly.words,
        0 ≤ word ∧ (word ≤ 32775 ∨ ∃ name, assembly.labels.get? name = some word)) ∧
      (∀ name address, assembly.labels.get? name = some address →
        0 ≤ address ∧ address ≤ code.length) ∧
      ((∃ failure, assembly.image = .error failure) ↔
        ∃ token ∈ layout.code.tokens, ∃ address,
          RefersBeyond assembly.labels token.content address) ∧
      (∀ failure, assembly.image = .error failure ↔
        ∃ index address, FirstBeyond assembly.labels layout.code.tokens index address ∧
          failure = .overall (.outputRange index address)) ∧
      (Text.isWritable code.length = true →
        ∀ index address, FirstBeyond assembly.labels layout.code.tokens index address →
          assembly.image = .error (.program { cause := .outputRange index address })) ∧
      (code.length ≤ 65535 → ∃ bytes, assembly.image = .ok bytes) := by
  obtain ⟨stages, rfl⟩ := (ofTokens_eq_ok_iff ..).mp assembled
  have failed_iff (failure : Failure) : stages.assembly.image = .error failure ↔
      ∃ index address,
        FirstBeyond stages.code.labels stages.layout.code.tokens index address ∧
          failure = .overall (.outputRange index address) := by
    rw [image, Image.pack_eq_error_iff, exists_comm]
    change (∃ index word, Image.firstExcess (stages.code.words ++ terminator settings) = _ ∧ _) ↔ _
    rw [Image.firstExcess_append _ fun word => isWord_of_mem_terminator]
    simp only [stages.firstExcess_words_iff]
  refine ⟨stages.layout, stages.code.words, stages.divided, rfl, rfl, ?_,
    fun name address => stages.address_bounds, ?_, failed_iff, ?_, ?_⟩
  · intro word listed
    obtain listed | listed := List.mem_append.mp listed
    · obtain ⟨token, _, emits⟩ := Outcome.exists_of_forall₂_of_mem stages.emits.flip listed
      obtain ⟨lower, upper | ⟨name, _, bound⟩⟩ := stages.word_bounds emits
      · exact ⟨lower, .inl upper⟩
      · exact ⟨lower, .inr ⟨name, bound⟩⟩
    · rw [List.eq_of_mem_replicate listed]
      exact ⟨by decide, .inl (by decide)⟩
  · simp only [failed_iff, ← exists_firstBeyond_iff]
    constructor
    · rintro ⟨_, index, address, first, _⟩
      exact ⟨index, address, first⟩
    · rintro ⟨index, address, first⟩
      exact ⟨_, index, address, first, rfl⟩
  · intro writable index address first
    rw [(failed_iff _).mpr ⟨index, address, first, rfl⟩, Failure.overall, Failure.ofFault,
      if_pos (stages.isWritable_of_firstBeyond first writable)]
  · intro small
    cases held : stages.assembly.image with
    | ok bytes => exact ⟨bytes, rfl⟩
    | error failure =>
        obtain ⟨_, _, ⟨_, _, _, _, _, ⟨name, _, bound, far⟩, _⟩, _⟩ := (failed_iff failure).mp held
        have upper := (stages.address_bounds bound).2
        omega

/-- A label behind the last word has the number of all words as its address, and the program that
refers to it is stored. -/
theorem image_of_jump_behind :
    ∃ tokens layout assembly,
      Token.ofSource ".data\n.code\nmain: JMP end\nend:" "<input>" = .ok tokens ∧
      Layout.ofTokens tokens = .ok layout ∧ ofTokens {} tokens = .ok assembly ∧
      assembly.words = [6, 2, 0, 0] ∧ assembly.labels.get? "end" = some 2 ∧
      (∀ token ∈ layout.code.tokens, ∀ address,
        ¬ RefersBeyond assembly.labels token.content address) ∧
      ∃ bytes, assembly.image = .ok bytes := by
  have assembled : (Token.ofSource ".data\n.code\nmain: JMP end\nend:" "<input>" >>= ofTokens {}) =
      .ok {
        words := [6, 2, 0, 0]
        labels := ⟨[("main", 0), ("end", 2)]⟩
        entries := [⟨0, 3, "JMP", [6, 2]⟩] } := by
    decide +kernel
  obtain ⟨tokens, read, assembled⟩ := Outcome.bind_eq_ok_iff.mp assembled
  obtain ⟨layout, code, divided, _, rfl, _, _, failed_iff, _, _, stored⟩ :=
    image_of_ofTokens assembled
  obtain ⟨bytes, image_eq⟩ := stored (by decide)
  refine ⟨tokens, layout, _, read, divided, assembled, rfl, rfl, ?_, bytes, image_eq⟩
  intro token listed address refers
  obtain ⟨failure, failed⟩ := failed_iff.mpr ⟨token, listed, address, refers⟩
  cases image_eq.symm.trans failed

end Assembly
end WordAsm
