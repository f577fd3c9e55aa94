import WordAsm.Proofs.Token.FaultPlaces
import WordAsm.Proofs.Token.Resumption

/-!
# The number of the first line

A source may be read with any number for its first line. The other lines are then numbered from
there on, and so are the places of tokens and faults. Line zero is an exception: what starts there
is counted on the line on which it ends, so a token that extends over a line break stands on line
one instead.
-/

namespace WordAsm

/-! ## Tokens that extend over a line break -/

namespace Lexeme

/-- A lexeme that holds a line feed holds one. -/
theorem Spelled.count_lineFeed
    {front : List Char}
    {lexeme : Lexeme}
    (spelled : Spelled front lexeme)
    (listed : '\n' ∈ front) :
    front.count '\n' = 1 := by
  obtain rfl | rfl := spelled.eq_of_lineFeed_mem listed
  · cases spelled
    rfl
  · rfl

/-- Whether a lexeme holds a line feed is seen from how the text goes on: with the line feed itself
or with a character around it. -/
theorem Spelled.lineFeed_mem_iff
    {front rest : List Char}
    {lexeme : Lexeme}
    (spelled : Spelled front lexeme)
    (stops : lexeme.StopsAt rest.head?) :
    '\n' ∈ front ↔ ['\n'] <+: front ++ rest ∨ brokenCharacter <+: front ++ rest := by
  constructor
  · intro listed
    obtain rfl | rfl := spelled.eq_of_lineFeed_mem listed
    · cases spelled
      exact .inl (List.prefix_append ..)
    · exact .inr (List.prefix_append ..)
  · obtain ⟨c, tail, rfl, read⟩ := spelled.exists_scan stops
    rintro (⟨behind, text_eq⟩ | ⟨behind, text_eq⟩)
    · cases text_eq
      exact List.mem_cons_self
    · obtain ⟨rfl, same⟩ := List.cons.inj text_eq
      have tail_eq : tail ++ rest = ['\\', '\n', '\''] ++ behind := same.symm
      have broken : scan '\'' (['\\', '\n', '\''] ++ behind) = .ok (.character '\n', 4) := rfl
      rw [tail_eq, broken] at read
      have length_eq : tail.length = 3 := by
        have same := congrArg Prod.snd (Except.ok.inj read)
        exact (Nat.succ.inj same).symm
      rw [(List.append_inj tail_eq length_eq).1]
      simp

end Lexeme

namespace Token

/-- Whether a token extends over a line break: at its place the source goes on with a line feed, or
with a character that holds one. -/
def CrossesLine
    (source : List Char)
    (token : Token) : Prop :=
  ∃ before rest, source = before ++ rest ∧
    token.location = .behind token.location.file before ∧
    (['\n'] <+: rest ∨ Lexeme.brokenCharacter <+: rest)

/-- The place of a token tells what the source goes on with. -/
theorem crossesLine_iff
    (file : String)
    (content : Content)
    (before rest : List Char) :
    CrossesLine (before ++ rest) ⟨content, .behind file before⟩ ↔
      ['\n'] <+: rest ∨ Lexeme.brokenCharacter <+: rest := by
  constructor
  · rintro ⟨other, behind, source_eq, located, crosses⟩
    have same : before = other :=
      Location.eq_of_behind_eq (List.prefix_append ..) ⟨behind, source_eq.symm⟩ located
    subst same
    rwa [List.append_cancel_left source_eq]
  · intro crosses
    exact ⟨before, rest, rfl, rfl, crosses⟩

/-- How a token stands in a source whose first line has another number: on its line as it is
numbered then. What extends over a line break and would stand on line zero stands one line below. -/
inductive Renumbered
    (source : List Char)
    (first : Int)
    (token : Token) : Token → Prop
  | shifted :
      (token.CrossesLine source → token.location.line + (first - 1) ≠ 0) →
      Renumbered source first token (token.down (first - 1))
  | below :
      token.CrossesLine source →
      token.location.line + (first - 1) = 0 →
      Renumbered source first token (token.down first)

/-! ## Two readings side by side -/

section

variable {cursor : Cursor} {before : List Char}

/-- A token on the line where its lexeme starts is renumbered with that line, and on the line where
the lexeme ends if it would stand on line zero. -/
theorem renumbered_place
    {front rest : List Char}
    {lexeme : Lexeme}
    (spelled : Lexeme.Spelled front lexeme)
    (stops : lexeme.StopsAt rest.head?)
    (standing : cursor.rest = front ++ rest)
    (behind : cursor.IsBehind before)
    (file : String)
    (content : Content)
    (first : Int) :
    let placed := lexeme.place (cursor.down (first - 1))
      ((cursor.skip front.length).down (first - 1))
    Renumbered (before ++ cursor.rest) first ⟨content, .behind file before⟩
      ⟨content, ⟨file, placed.line, placed.column⟩⟩ := by
  have crosses_iff := crossesLine_iff file content before cursor.rest
  rw [standing, ← spelled.lineFeed_mem_iff stops, ← standing] at crosses_iff
  have moved (lines : Int) :
      (⟨content, .behind file before⟩ : Token).down lines =
        ⟨content, ⟨file, cursor.line + lines, cursor.column⟩⟩ := by
    rw [behind.line, behind.column]
    rfl
  have line_eq : (Location.behind file before).line = cursor.line := behind.line.symm
  have stop := (behind.skip standing).line
  rw [List.count_append, Nat.cast_add, add_right_comm, ← behind.line] at stop
  dsimp only [Lexeme.place, Cursor.down]
  split
  · next zero =>
      -- The line where the lexeme ends is taken, and it is another one only behind a line feed.
      by_cases listed : '\n' ∈ front
      · rw [spelled.count_lineFeed listed, Nat.cast_one] at stop
        rw [stop, show cursor.line + 1 + (first - 1) = cursor.line + first by omega, ← moved]
        exact .below (crosses_iff.mpr listed) (by rwa [line_eq])
      · rw [List.count_eq_zero_of_not_mem listed, Nat.cast_zero, add_zero] at stop
        rw [stop, ← moved]
        exact .shifted fun crosses => absurd (crosses_iff.mp crosses) listed
  · next other =>
      rw [← moved]
      exact .shifted fun _ => by rwa [line_eq]

/-- What the end of a source adds is renumbered with its line, for no line feed follows. -/
theorem renumbered_closing
    (finished : cursor.rest = [])
    (behind : cursor.IsBehind before)
    (file : String)
    (content : Content)
    (first : Int) :
    Renumbered (before ++ cursor.rest) first ⟨content, ⟨file, cursor.line, cursor.column⟩⟩
      ⟨content, ⟨file, cursor.line + (first - 1), cursor.column⟩⟩ := by
  refine .shifted fun crosses => ?_
  rw [behind.line, behind.column] at crosses
  have follows := (crossesLine_iff file content before cursor.rest).mp crosses
  simp [finished, Lexeme.brokenCharacter] at follows

/-- The tokens of a source read with two numbers for its first line stand side by side. -/
theorem renumbered_readFrom
    (file : String)
    (context : Context)
    (behind : cursor.IsBehind before)
    (first : Int) :
    List.Forall₂ (Renumbered (before ++ cursor.rest) first) (readFrom file context cursor).tokens
      (readFrom file context (cursor.down (first - 1))).tokens := by
  fun_induction readFrom file context cursor generalizing before with
  | case1 context cursor finished =>
      rw [readFrom_of_nil (show (cursor.down (first - 1)).rest = [] from finished),
        List.forall₂_map_left_iff, List.forall₂_map_right_iff, List.forall₂_same]
      exact fun content _ => renumbered_closing finished behind file content first
  | case2 context cursor c rest standing error failed =>
      have same : (cursor.down (first - 1)).rest = c :: rest := standing
      rw [readFrom_of_error same failed]
      exact .nil
  | case3 context cursor c rest standing lexeme length read _ hypothesis =>
      have same : (cursor.down (first - 1)).rest = c :: rest := standing
      obtain ⟨front, later, text_eq, rfl, spelled, stops⟩ := Lexeme.leads_of_scan read
      rw [text_eq] at standing
      rw [readFrom_of_scan same read, Cursor.skip_down, Context.tokensOf_place behind]
      refine List.rel_append ?_ ?_
      · change List.Forall₂ _ (List.map _ (context.content? lexeme).toList)
          (List.map _ (context.content? lexeme).toList)
        rw [List.forall₂_map_left_iff, List.forall₂_map_right_iff, List.forall₂_same]
        exact fun content _ =>
          renumbered_place spelled stops standing behind file content first
      · have reached := hypothesis (behind.skip standing)
        rwa [Cursor.rest_skip, standing, List.drop_left, List.append_assoc, ← standing] at reached

end

/-- The failure of a source is renumbered with its line, also on line zero. -/
theorem failure_readFrom_down
    (file : String)
    (context : Context)
    (cursor : Cursor)
    (lines : Int) :
    (readFrom file context (cursor.down lines)).failure =
      (readFrom file context cursor).failure.map (·.down lines) := by
  fun_induction readFrom file context cursor with
  | case1 context cursor finished =>
      rw [readFrom_of_nil (show (cursor.down lines).rest = [] from finished)]
      rfl
  | case2 context cursor c rest standing error failed =>
      rw [readFrom_of_error (show (cursor.down lines).rest = c :: rest from standing) failed,
        Lexeme.Error.failure_down]
      rfl
  | case3 context cursor c rest standing lexeme length read _ hypothesis =>
      rw [readFrom_of_scan (show (cursor.down lines).rest = c :: rest from standing) read,
        Cursor.skip_down]
      exact hypothesis

/-! ## The number of the first line -/

theorem Renumbered.eq_down_iff
    {source : List Char}
    {first : Int}
    {token other : Token}
    (renumbered : Renumbered source first token other) :
    other = token.down (first - 1) ↔
      (token.CrossesLine source → token.location.line + (first - 1) ≠ 0) := by
  cases renumbered with
  | shifted above => exact ⟨fun _ => above, fun _ => rfl⟩
  | below crosses zero =>
      constructor
      · intro same
        have lines := congrArg (·.location.line) same
        simp only [down, Location.down] at lines
        omega
      · intro above
        exact absurd zero (above crosses)

/-- Tokens that are renumbered are all shifted alike exactly if none of them that extends over a
line break comes to line zero. -/
theorem eq_map_down_iff
    {source : List Char}
    {first : Int}
    {tokens others : List Token}
    (renumbered : List.Forall₂ (Renumbered source first) tokens others) :
    others = tokens.map (·.down (first - 1)) ↔
      ∀ token ∈ tokens, token.CrossesLine source → token.location.line + (first - 1) ≠ 0 := by
  induction renumbered with
  | nil => simp
  | cons here _ hypothesis =>
      rw [List.map_cons, List.cons.injEq, hypothesis, here.eq_down_iff, List.forall_mem_cons]

/-- A source is read alike with every number for its first line, up to the numbers of the lines. A
failure is as many lines further down, and so is every token, unless it extends over a line break
and would stand on line zero; it stands on line one then. So one reading is the other one further
down exactly if there is no such token, and in particular if the number is positive. -/
theorem read_from_line
    (source file : String)
    (first : Int) :
    (read source file first).failure = (read source file).failure.map (·.down (first - 1)) ∧
    List.Forall₂ (Renumbered source.toList first) (read source file).tokens
      (read source file first).tokens ∧
    (read source file first = (read source file).down (first - 1) ↔
      ∀ token ∈ (read source file).tokens, token.CrossesLine source.toList →
        token.location.line + (first - 1) ≠ 0) ∧
    (0 < first → read source file first = (read source file).down (first - 1)) := by
  have start_eq : Cursor.start source.toList first =
      (Cursor.start source.toList 1).down (first - 1) := by
    simp [Cursor.start, Cursor.down]
  have failure_eq := failure_readFrom_down file {} (.start source.toList 1) (first - 1)
  have renumbered : List.Forall₂ (Renumbered source.toList first) _ _ :=
    renumbered_readFrom file {} (Cursor.isBehind_start source.toList) first
  simp only [read_eq_readFrom, start_eq]
  refine ⟨failure_eq, renumbered, ?_, fun positive => ?_⟩
  · rw [← eq_map_down_iff renumbered]
    constructor
    · intro same
      rw [same]
      rfl
    · intro same
      rw [Reading.down, ← same, ← failure_eq]
  · exact readFrom_down file {} Int.one_pos (show 0 < 1 + (first - 1) by omega)

/-- The end of line zero stands on line one. -/
theorem read_from_line_zero :
    (read "NOOP\n" "<input>" 0).tokens.map (·.location.line) = [0, 1] ∧
      read "NOOP\n" "<input>" 0 ≠ (read "NOOP\n" "<input>").down (0 - 1) := by
  refine ⟨by decide +kernel, fun same => ?_⟩
  have above := (read_from_line "NOOP\n" "<input>" 0).2.2.1.mp same
  exact above ⟨.lineEnd, ⟨"<input>", 1, 5⟩⟩ (by decide +kernel)
    ⟨['N', 'O', 'O', 'P'], ['\n'], rfl, rfl, .inl List.prefix_rfl⟩ rfl

end Token
end WordAsm
