import WordAsm.Proofs.Encoding.Grammar
import WordAsm.Proofs.Table
import Mathlib.Data.List.Chain
import Mathlib.Data.List.Forall2

/-!
# The two passes agree on addresses

The first pass counts tokens and knows nothing of instructions; the second completes one
instruction after the other. While the second pass reads, the tokens counted so far are the
words of the instructions it has completed and of the one it is reading. A label can only stand
between two instructions, so it is bound to the address at which the next one starts.
-/

namespace WordAsm

/-- What a mnemonic says of the instruction that it opens: its name in capitals and its line. -/
def Token.opening? (token : Token) : Option (String × Int) :=
  match token.content with
  | .mnemonic name => some (Text.upperCase name, token.location.line)
  | _ => none

/-- The name of an encoded instruction and the line of its mnemonic. -/
def Entry.opening (entry : Entry) : String × Int :=
  (entry.mnemonic, entry.line)

/-- Whether a token takes a word of the program: labels, commas and ends of lines take none. -/
def Token.takesWord (token : Token) : Bool :=
  token.content.tag ∉ ["LABEL", "COMMA", "NEWLINE"]

/-! ## Bindings of the first pass -/

namespace Address

/-- Number of words that tokens take in the program. -/
def extent (tokens : List Token) : Nat :=
  (tokens.map (·.content.width)).sum

@[simp] theorem extent_nil : extent [] = 0 := rfl

@[simp] theorem extent_cons
    (token : Token)
    (tokens : List Token) :
    extent (token :: tokens) = token.content.width + extent tokens := rfl

/-- All tokens but labels, commas and ends of lines take one word. -/
theorem extent_eq_countP (tokens : List Token) :
    extent tokens = tokens.countP Token.takesWord := by
  induction tokens with
  | nil => rfl
  | cons token tokens hypothesis =>
      rw [extent_cons, List.countP_cons, hypothesis, Nat.add_comm, Token.takesWord]
      cases token.content <;> rfl

theorem bindingsFrom_eq_append
    (address : Nat)
    (before : Array Binding)
    (tokens : List Token) :
    bindingsFrom address before tokens = before.toList ++ bindingsFrom address #[] tokens := by
  induction tokens generalizing address before with
  | nil => simp [bindingsFrom]
  | cons token tokens hypothesis =>
      rw [bindingsFrom, bindingsFrom]
      cases token.content with
      | label name =>
          rw [hypothesis, hypothesis _ (#[].push _)]
          simp
      | _ => exact hypothesis _ before

/-- The bindings of tokens are those of a front part, and those of the rest from the address
that the front part reaches. -/
theorem bindingsFrom_append
    (address : Nat)
    (front back : List Token) :
    bindingsFrom address #[] (front ++ back) =
      bindingsFrom address #[] front ++ bindingsFrom (address + extent front) #[] back := by
  induction front generalizing address with
  | nil => rfl
  | cons token front hypothesis =>
      rw [List.cons_append, bindingsFrom, bindingsFrom, bindingsFrom_eq_append,
        bindingsFrom_eq_append _ _ front, hypothesis, extent_cons, ← Nat.add_assoc,
        List.append_assoc]

theorem bindingsFrom_label
    {address : Nat}
    {token : Token}
    {name : String}
    (tokens : List Token)
    (content : token.content = .label name) :
    bindingsFrom address #[] (token :: tokens) =
      ⟨name, address, token.location.line⟩ :: bindingsFrom address #[] tokens := by
  rw [bindingsFrom, content, bindingsFrom_eq_append]
  rfl

/-- Every binding belongs to a label, and its address counts the words before that label. -/
theorem exists_label_of_mem_bindingsFrom
    {address : Nat}
    {tokens : List Token}
    {binding : Binding}
    (member : binding ∈ bindingsFrom address #[] tokens) :
    ∃ before token after, tokens = before ++ token :: after ∧
      token.content = .label binding.name ∧ binding.address = address + extent before := by
  induction tokens generalizing address with
  | nil => cases member
  | cons token tokens hypothesis =>
      rw [bindingsFrom, bindingsFrom_eq_append, List.mem_append] at member
      rcases member with here | later
      · split at here
        · next name content =>
            simp only [List.push_toArray, List.nil_append, List.mem_cons, List.not_mem_nil,
              or_false] at here
            subst here
            exact ⟨[], token, tokens, rfl, content, rfl⟩
        · cases here
      · obtain ⟨before, other, after, rfl, content, reached⟩ := hypothesis later
        exact ⟨token :: before, other, after, rfl, content, by rw [reached, extent_cons]; omega⟩

/-- The last declaration of a label binds it to the words before it. -/
theorem table_get?_of_last
    {before after : List Token}
    {declaration : Token}
    {name : String}
    (content : declaration.content = .label name)
    (last : ∀ token ∈ after, token.content ≠ .label name) :
    (table (before ++ declaration :: after)).get? name = some (extent before : Int) := by
  have later : ∀ entry ∈ (bindingsFrom (extent before) #[] after).map
      fun binding => (binding.name, (binding.address : Int)), entry.1 ≠ name := by
    intro entry member same
    obtain ⟨binding, bound, rfl⟩ := List.mem_map.mp member
    obtain ⟨front, token, back, rfl, declared, _⟩ := exists_label_of_mem_bindingsFrom bound
    exact last token (by simp) (same ▸ declared)
  rw [table, bindings, bindingsFrom_append, Nat.zero_add, bindingsFrom_label after content,
    List.map_append, List.map_cons]
  exact Table.get?_ofList_append _ _ name _ later

/-- The address of a label counts the words before one of its declarations. -/
theorem exists_label_of_table_get?
    {tokens : List Token}
    {name : String}
    {address : Int}
    (bound : (table tokens).get? name = some address) :
    ∃ before token after, tokens = before ++ token :: after ∧ token.content = .label name ∧
      address = extent before := by
  obtain ⟨binding, listed, binding_eq⟩ := List.mem_map.mp (Table.mem_of_get?_ofList bound)
  cases binding_eq
  obtain ⟨before, token, after, tokens_eq, content, reached⟩ :=
    exists_label_of_mem_bindingsFrom listed
  exact ⟨before, token, after, tokens_eq, content, by rw [reached, Nat.zero_add]⟩

theorem contains_table_iff
    (tokens : List Token)
    (name : String) :
    (table tokens).contains name = true ↔ ∃ token ∈ tokens, token.content = .label name := by
  rw [Table.contains, Option.isSome_iff_exists]
  constructor
  · rintro ⟨address, found⟩
    obtain ⟨front, token, back, rfl, content, _⟩ := exists_label_of_table_get? found
    exact ⟨token, by simp, content⟩
  · rintro ⟨token, listed, content⟩
    obtain ⟨before, after, rfl⟩ := List.append_of_mem listed
    apply Table.exists_get?_ofList
    rw [bindings, bindingsFrom_append, bindingsFrom_label after content]
    simp

/-- Tokens without labels behind a code section change no address. -/
theorem table_append
    (tokens : List Token)
    {more : List Token}
    (unlabelled : ∀ token ∈ more, token.content.label? = none) :
    table (tokens ++ more) = table tokens := by
  have unbound : bindingsFrom (0 + extent tokens) #[] more = [] := by
    rw [List.eq_nil_iff_forall_not_mem]
    intro binding bound
    obtain ⟨before, token, after, rfl, content, _⟩ := exists_label_of_mem_bindingsFrom bound
    have absent := unlabelled token (by simp)
    rw [content] at absent
    cases absent
  rw [table, bindings, bindingsFrom_append, unbound, List.append_nil]
  rfl

end Address

/-! ## The second pass keeps step -/

namespace Encoder

/-- The instruction that is being read in a state, if there is one. -/
def State.held : State → List Pending
  | .instruction => []
  | .operand pending _ _ | .separator pending _ => [pending]

/-- The name of an instruction and the line of its mnemonic. -/
def Pending.opening (pending : Pending) : String × Int :=
  (pending.instruction.mnemonic, pending.line)

theorem Denotes.width_eq_one
    {addresses : Table Int}
    {content : Token.Content}
    {word : Int}
    (denotes : Denotes addresses content word) :
    content.width = 1 := by
  cases denotes <;> rfl

/-- A token takes as many words as the completed instructions and the one being read grow. -/
theorem Move.extent_eq
    {addresses : Table Int}
    {first second : State}
    {token : Token}
    {completed : List Pending}
    (move : Move addresses first token second completed) :
    totalSize first.held + token.content.width =
      totalSize completed + totalSize second.held := by
  cases move with
  | skip ignored =>
      rcases ignored with content | ⟨name, content⟩ <;> rw [content] <;> rfl
  | beginPlain content => rw [content]; rfl
  | begin content => rw [content]; rfl
  | operand denotes =>
      rw [denotes.width_eq_one]
      simp [State.held, Pending.size]
  | comma content =>
      rw [content]
      exact Nat.add_comm _ _
  | close content => rw [content]; rfl

theorem Moves.extent_eq
    {addresses : Table Int}
    {first final : State}
    {tokens : List Token}
    {completed : List Pending}
    (moves : Moves addresses first tokens final completed) :
    totalSize first.held + Address.extent tokens =
      totalSize completed + totalSize final.held := by
  induction moves with
  | nil state => simp
  | cons move moves hypothesis =>
      have here := move.extent_eq
      rw [Address.extent_cons, totalSize_append]
      omega

/-- A token opens the instructions that it adds to the completed ones and the one being read. -/
theorem Move.opening_eq
    {addresses : Table Int}
    {first second : State}
    {token : Token}
    {completed : List Pending}
    (move : Move addresses first token second completed) :
    first.held.map Pending.opening ++ token.opening?.toList =
      (completed ++ second.held).map Pending.opening := by
  cases move with
  | skip ignored =>
      rcases ignored with content | ⟨name, content⟩ <;> rw [Token.opening?, content] <;> rfl
  | beginPlain content found =>
      obtain ⟨_, named⟩ := (Instruction.ofMnemonic?_eq_some_iff ..).mp found
      simp [Token.opening?, content, State.held, Pending.opening, named]
  | begin content found =>
      obtain ⟨_, named⟩ := (Instruction.ofMnemonic?_eq_some_iff ..).mp found
      simp [Token.opening?, content, State.held, Pending.opening, named]
  | operand denotes =>
      have plain : token.opening? = none := by
        unfold Token.opening?
        generalize token.content = content at denotes
        cases denotes <;> rfl
      rw [plain]
      rfl
  | comma content => rw [Token.opening?, content]; rfl
  | close content => rw [Token.opening?, content]; rfl

theorem Moves.opening_eq
    {addresses : Table Int}
    {first final : State}
    {tokens : List Token}
    {completed : List Pending}
    (moves : Moves addresses first tokens final completed) :
    first.held.map Pending.opening ++ tokens.filterMap Token.opening? =
      (completed ++ final.held).map Pending.opening := by
  induction moves with
  | nil state => simp
  | @cons first second _ token tokens earlier later move moves hypothesis =>
      calc first.held.map Pending.opening ++ (token :: tokens).filterMap Token.opening?
          = (first.held.map Pending.opening ++ token.opening?.toList) ++
              tokens.filterMap Token.opening? := by
            rw [List.append_assoc]
            cases opened : token.opening? <;> simp [opened]
        _ = earlier.map Pending.opening ++
              (second.held.map Pending.opening ++ tokens.filterMap Token.opening?) := by
            rw [move.opening_eq, List.map_append, List.append_assoc]
        _ = _ := by
            rw [hypothesis, ← List.map_append, List.append_assoc]

/-- Where the encoder may stop, what it is reading is completed. -/
theorem Stops.held_eq
    {state : State}
    {last : List Pending}
    (stops : Stops state last) :
    state.held = last := by
  cases stops <;> rfl

/-- Moves for two lists of tokens one behind the other meet in a state. -/
theorem Moves.exists_of_append
    {addresses : Table Int}
    {first final : State}
    {front back : List Token}
    {completed : List Pending}
    (moves : Moves addresses first (front ++ back) final completed) :
    ∃ middle earlier later, Moves addresses first front middle earlier ∧
      Moves addresses middle back final later ∧ completed = earlier ++ later := by
  induction front generalizing first completed with
  | nil => exact ⟨first, [], completed, .nil _, moves, rfl⟩
  | cons token front hypothesis =>
      cases moves with
      | cons move moves =>
          obtain ⟨middle, earlier, later, before, behind, rfl⟩ := hypothesis moves
          exact ⟨middle, _, later, .cons move before, behind, (List.append_assoc ..).symm⟩

/-- Labels stand between instructions only. -/
theorem Move.of_label
    {addresses : Table Int}
    {first second : State}
    {token : Token}
    {name : String}
    {completed : List Pending}
    (move : Move addresses first token second completed)
    (content : token.content = .label name) :
    first = .instruction ∧ second = .instruction ∧ completed = [] := by
  cases move with
  | skip => exact ⟨rfl, rfl, rfl⟩
  | beginPlain other => rw [content] at other; cases other
  | begin other => rw [content] at other; cases other
  | operand denotes => rw [content] at denotes; cases denotes
  | comma other => rw [content] at other; cases other
  | close other => rw [content] at other; cases other

/-- Behind the end of a line an instruction is expected. -/
theorem Move.of_lineEnd
    {addresses : Table Int}
    {first second : State}
    {token : Token}
    {completed : List Pending}
    (move : Move addresses first token second completed)
    (content : token.content = .lineEnd) :
    second = .instruction := by
  cases move with
  | skip => rfl
  | beginPlain other => rw [content] at other; cases other
  | begin other => rw [content] at other; cases other
  | operand denotes => rw [content] at denotes; cases denotes
  | comma other => rw [content] at other; cases other
  | close => rfl

/-- Code that ends with the end of a line leaves no instruction open. -/
theorem exists_moves_of_lineEnd
    {addresses : Table Int}
    {tokens : List Token}
    {token : Token}
    {entries : List Entry}
    (encoded : entriesOf addresses (tokens ++ [token]) = .ok entries)
    (content : token.content = .lineEnd) :
    ∃ completed, Moves addresses .instruction (tokens ++ [token]) .instruction completed ∧
      entries = place 0 completed := by
  obtain ⟨final, completed, last, moves, stops, rfl⟩ := (entriesOf_eq_ok_iff ..).mp encoded
  obtain ⟨middle, earlier, later, _, back, _⟩ := moves.exists_of_append
  have between : final = .instruction := by
    cases back with
    | cons move rest =>
        cases rest
        exact move.of_lineEnd content
  subst between
  cases stops
  exact ⟨completed, moves, by rw [List.append_nil]⟩

/-- At a label the instructions divide into those that open before it, whose words are counted
there, and those that open behind it. -/
theorem exists_statements_of_label
    {addresses : Table Int}
    {before after : List Token}
    {declaration : Token}
    {name : String}
    {entries : List Entry}
    (encoded : entriesOf addresses (before ++ declaration :: after) = .ok entries)
    (content : declaration.content = .label name) :
    ∃ earlier later, entries = place 0 (earlier ++ later) ∧
      totalSize earlier = Address.extent before ∧
      before.filterMap Token.opening? = earlier.map Pending.opening ∧
      after.filterMap Token.opening? = later.map Pending.opening := by
  obtain ⟨final, completed, last, moves, stops, rfl⟩ := (entriesOf_eq_ok_iff ..).mp encoded
  obtain ⟨middle, earlier, later, front, back, rfl⟩ := moves.exists_of_append
  cases back with
  | @cons _ _ _ _ _ _ behind move back =>
      obtain ⟨rfl, rfl, rfl⟩ := move.of_label content
      refine ⟨earlier, behind ++ last, by rw [List.append_assoc, List.nil_append], ?_, ?_, ?_⟩
      · simpa [State.held] using front.extent_eq.symm
      · simpa [State.held] using front.opening_eq
      · rw [← stops.held_eq]
        exact back.opening_eq

/-! ## Entries in a row -/

theorem length_wordsOf (statements : List Pending) :
    (wordsOf statements).length = totalSize statements := by
  rw [wordsOf, List.length_flatMap]
  rfl

theorem head?_place
    (address : Nat)
    (statements : List Pending) :
    (place address statements).head? = statements.head?.map (·.entry address) := by
  cases statements <;> rfl

theorem map_opening_place
    (address : Nat)
    (statements : List Pending) :
    (place address statements).map Entry.opening = statements.map Pending.opening := by
  induction statements generalizing address with
  | nil => rfl
  | cons statement statements hypothesis =>
      rw [place, List.map_cons, hypothesis]
      rfl

theorem isChain_place
    (address : Nat)
    (statements : List Pending) :
    (place address statements).IsChain fun (entry next : Entry) =>
      next.address = entry.address + entry.words.length := by
  induction statements generalizing address with
  | nil => exact .nil
  | cons statement statements hypothesis =>
      have rest := hypothesis (address + statement.size)
      cases statements with
      | nil => exact .singleton _
      | cons next statements =>
          refine .cons_cons ?_ rest
          simp [Pending.entry, Pending.size]

/-- Entries in a row keep between the addresses at which the row starts and ends. -/
theorem bounds_of_mem_place
    {address : Nat}
    {statements : List Pending}
    {entry : Entry}
    (member : entry ∈ place address statements) :
    (address : Int) ≤ entry.address ∧
      entry.address + entry.words.length ≤ address + totalSize statements := by
  induction statements generalizing address with
  | nil => cases member
  | cons statement statements hypothesis =>
      rcases List.mem_cons.mp member with rfl | later
      · simp only [Pending.entry, List.length_cons, totalSize_cons, Pending.size]
        omega
      · obtain ⟨lower, upper⟩ := hypothesis later
        rw [totalSize_cons]
        omega

end Encoder

/-! ## Addresses of generated code -/

/-- What the entries, words and labels of some code have to do with the tokens it was generated
from. -/
structure Code.Agrees
    (code : Code)
    (tokens : List Token) : Prop where
  /-- The first entry stands at the start of the program. -/
  start : ∀ entry ∈ code.entries.head?, entry.address = 0
  /-- Every other entry stands where the one before it ends. -/
  contiguous : code.entries.IsChain fun (entry next : Entry) =>
    next.address = entry.address + entry.words.length
  /-- The words are those of the entries in order. -/
  words_eq : code.words = code.entries.flatMap (·.words)
  /-- Every token but labels, commas and ends of lines makes one word. -/
  length_words : code.words.length = tokens.countP Token.takesWord
  /-- The entries come from the mnemonics in order. -/
  openings_eq : tokens.filterMap Token.opening? = code.entries.map Entry.opening
  /-- The declared labels are bound, and no other names. -/
  contains_iff : ∀ name, code.labels.contains name = true ↔
    ∃ token ∈ tokens, token.content = .label name
  /-- A label is bound where the first entry opens whose mnemonic comes behind the label's last
  declaration, or where the words end if there is none. -/
  bound : ∀ before declaration after name, tokens = before ++ declaration :: after →
    declaration.content = .label name → (∀ token ∈ after, token.content ≠ .label name) →
    ∃ earlier later, code.entries = earlier ++ later ∧
      before.filterMap Token.opening? = earlier.map Entry.opening ∧
      after.filterMap Token.opening? = later.map Entry.opening ∧
      code.labels.get? name = some (match later with
        | [] => (code.words.length : Int)
        | entry :: _ => entry.address)
  /-- No label points into an instruction. -/
  unbroken : ∀ name address, code.labels.get? name = some address →
    ∀ entry ∈ code.entries,
      ¬(entry.address < address ∧ address < entry.address + entry.words.length)

namespace Code

theorem entriesOf_of_generate
    {tokens : List Token}
    {code : Code}
    (generated : generate tokens = .ok code) :
    code.labels = Address.table tokens ∧
      Encoder.entriesOf (Address.table tokens) tokens = .ok code.entries := by
  obtain ⟨entries, encoded, finished⟩ := Outcome.bind_eq_ok_iff.mp generated
  cases finished
  exact ⟨rfl, encoded⟩

open Encoder in
/-- The label's last declaration divides the entries, and its address is where they divide. -/
theorem bound_of_generate
    {before after : List Token}
    {declaration : Token}
    {name : String}
    {code : Code}
    (generated : generate (before ++ declaration :: after) = .ok code)
    (content : declaration.content = .label name)
    (last : ∀ token ∈ after, token.content ≠ .label name) :
    ∃ earlier later, code.entries = earlier ++ later ∧
      before.filterMap Token.opening? = earlier.map Entry.opening ∧
      after.filterMap Token.opening? = later.map Entry.opening ∧
      code.labels.get? name = some (match later with
        | [] => (code.words.length : Int)
        | entry :: _ => entry.address) := by
  obtain ⟨labels_eq, encoded⟩ := entriesOf_of_generate generated
  obtain ⟨earlier, later, entries_eq, size_eq, front, back⟩ :=
    exists_statements_of_label encoded content
  rw [place_append, Nat.zero_add] at entries_eq
  refine ⟨place 0 earlier, place (totalSize earlier) later, entries_eq, ?_, ?_, ?_⟩
  · rw [front, map_opening_place]
  · rw [back, map_opening_place]
  · rw [labels_eq, Address.table_get?_of_last content last, ← size_eq]
    cases later with
    | nil =>
        rw [place, List.append_nil] at entries_eq
        rw [words, entries_eq, allWords_place, length_wordsOf]
        rfl
    | cons statement later => rfl

open Encoder in
theorem unbroken_of_generate
    {tokens : List Token}
    {code : Code}
    {name : String}
    {address : Int}
    (generated : generate tokens = .ok code)
    (bound : code.labels.get? name = some address)
    (entry : Entry)
    (member : entry ∈ code.entries) :
    ¬(entry.address < address ∧ address < entry.address + entry.words.length) := by
  obtain ⟨labels_eq, encoded⟩ := entriesOf_of_generate generated
  rw [labels_eq] at bound
  obtain ⟨before, token, after, rfl, content, reached⟩ := Address.exists_label_of_table_get? bound
  obtain ⟨earlier, later, entries_eq, size_eq, _⟩ := exists_statements_of_label encoded content
  rw [entries_eq, place_append, List.mem_append] at member
  rcases member with front | back
  · have bounds := bounds_of_mem_place front
    omega
  · have bounds := bounds_of_mem_place back
    omega

open Encoder in
/-- Every mnemonic opens an entry, in order. -/
theorem openings_of_generate
    {tokens : List Token}
    {code : Code}
    (generated : generate tokens = .ok code) :
    tokens.filterMap Token.opening? = code.entries.map Entry.opening := by
  obtain ⟨_, encoded⟩ := entriesOf_of_generate generated
  obtain ⟨final, completed, last, moves, stops, entries_eq⟩ :=
    (entriesOf_eq_ok_iff ..).mp encoded
  have openings := moves.opening_eq
  rw [stops.held_eq] at openings
  rw [entries_eq, map_opening_place]
  simpa [State.held] using openings

open Encoder in
/-- Whenever code is generated, the two passes agree on all addresses. -/
theorem agrees_of_generate
    {tokens : List Token}
    {code : Code}
    (generated : generate tokens = .ok code) :
    code.Agrees tokens := by
  obtain ⟨labels_eq, encoded⟩ := entriesOf_of_generate generated
  obtain ⟨final, completed, last, moves, stops, entries_eq⟩ :=
    (entriesOf_eq_ok_iff ..).mp encoded
  have extent := moves.extent_eq
  rw [stops.held_eq] at extent
  exact {
    start := by
      intro entry first
      rw [entries_eq, head?_place] at first
      obtain ⟨statement, _, rfl⟩ := Option.map_eq_some_iff.mp first
      rfl
    contiguous := entries_eq ▸ isChain_place 0 _
    words_eq := rfl
    length_words := by
      rw [words, entries_eq, allWords_place, length_wordsOf, ← Address.extent_eq_countP,
        totalSize_append, ← extent]
      simp [State.held]
    openings_eq := openings_of_generate generated
    contains_iff := fun name => labels_eq ▸ Address.contains_table_iff tokens name
    bound := by
      rintro before declaration after name rfl content
      exact bound_of_generate generated content
    unbroken := fun name address bound => unbroken_of_generate generated bound }

/-- A jump to the end of the code, over a label that is declared a second time. -/
def redeclared : List Token := [
    ⟨.label "main", { line := 1 }⟩, ⟨.mnemonic "jt", { line := 1 }⟩,
    ⟨.number 32768, { line := 1 }⟩, ⟨.comma, { line := 1 }⟩, ⟨.symbol "end", { line := 1 }⟩,
    ⟨.lineEnd, { line := 1 }⟩, ⟨.label "main", { line := 2 }⟩, ⟨.mnemonic "NOOP", { line := 2 }⟩,
    ⟨.lineEnd, { line := 2 }⟩, ⟨.label "end", { line := 3 }⟩]

theorem agrees_redeclared :
    generate redeclared = .ok {
        labels := ⟨[("main", 3), ("end", 4)]⟩
        entries := [⟨0, 1, "JT", [7, 32768, 4]⟩, ⟨3, 2, "NOOP", [21]⟩] } ∧
      Agrees {
        labels := ⟨[("main", 3), ("end", 4)]⟩
        entries := [⟨0, 1, "JT", [7, 32768, 4]⟩, ⟨3, 2, "NOOP", [21]⟩] } redeclared :=
  ⟨rfl, agrees_of_generate rfl⟩

end Code
end WordAsm
