import Mathlib.Data.List.DropRight
import Mathlib.Data.List.TakeWhile
import WordAsm.Text.Blank
import WordAsm.Text.Lines

/-!
# Lines of a source on paper

In a source a line ends at a line feed, on paper at every separator. Where the two agree above a
line, the line on paper with its number is the line of the source up to its first separator. Where
they do not, it is an earlier part of the text.
-/

namespace WordAsm
namespace Text

/-- Whether a line of a source starts behind some text. -/
def Ended (text : List Char) : Prop :=
  ∀ c ∈ text.getLast?, c = '\n'

/-- A line of a source, the text above it and the text from its end on. -/
structure IsLine (text above line below : List Char) : Prop where
  text_eq : text = above ++ (line ++ below)
  ended : Ended above
  unbroken : '\n' ∉ line
  followed : ∀ c ∈ below.head?, c = '\n'

/-- The line of a source at a position, from the text before the position and the text behind it. -/
def lineAround (before rest : List Char) : List Char :=
  before.rtakeWhile (· != '\n') ++ rest.takeWhile (· != '\n')

/-- Number of ends of lines on paper that are none in a source. A carriage return in front of a
line feed goes with it. -/
def strayEnds : List Char → Nat
  | [] => 0
  | '\r' :: '\n' :: rest => strayEnds rest
  | c :: rest => (if isLineEnd c && c != '\n' then 1 else 0) + strayEnds rest

/-- What a line shows on paper. -/
def firstPart (line : List Char) : List Char :=
  line.takeWhile fun c => !isLineEnd c

/-- What stands on a line from its first separator on. -/
def otherParts (line : List Char) : List Char :=
  line.dropWhile fun c => !isLineEnd c

/-! ## Lines of a source -/

/-- At every position of a text there is a line. -/
theorem isLine_lineAround (before rest : List Char) :
    IsLine (before ++ rest) (before.rdropWhile (· != '\n')) (lineAround before rest)
      (rest.dropWhile (· != '\n')) where
  text_eq := by
    rw [lineAround, List.append_assoc, List.takeWhile_append_dropWhile, ← List.append_assoc,
      List.rdropWhile_append_rtakeWhile]
  ended := by
    intro c last
    obtain ⟨nonempty, rfl⟩ := List.mem_getLast?_eq_getLast last
    simpa using List.rdropWhile_last_not _ _ nonempty
  unbroken := by
    rw [lineAround, List.mem_append]
    rintro (feed | feed)
    · have other := List.mem_rtakeWhile_imp feed
      simp at other
    · have other := List.mem_takeWhile_imp feed
      simp at other
  followed := by
    intro c first
    have stopped := List.head?_dropWhile_not (· != '\n') rest
    rw [first] at stopped
    simpa using stopped

/-- The lines above a position are those that end before it. -/
theorem count_rdropWhile (before : List Char) :
    (before.rdropWhile (· != '\n')).count '\n' = before.count '\n' := by
  have unbroken : '\n' ∉ before.rtakeWhile (· != '\n') := by
    intro feed
    have other := List.mem_rtakeWhile_imp feed
    simp at other
  conv_rhs => rw [← @List.rdropWhile_append_rtakeWhile _ (· != '\n') before]
  rw [List.count_append, List.count_eq_zero.mpr unbroken, Nat.add_zero]

theorem length_splitOn (text : List Char) :
    (text.splitOn '\n').length = text.count '\n' + 1 := by
  induction text with
  | nil => rfl
  | cons c text hypothesis =>
      rw [List.splitOn_cons_eq_if_modifyHead, List.count_cons]
      split <;> simp [hypothesis]

/-- A line is found by the number of lines above it where the text is split at its line feeds. -/
theorem IsLine.getElem?_splitOn
    {text above line below : List Char}
    (isLine : IsLine text above line below) :
    (text.splitOn '\n')[above.count '\n']? = some line := by
  obtain ⟨rfl, ended, unbroken, followed⟩ := isLine
  have first : ((line ++ below).splitOn '\n')[0]? = some line := by
    cases below with
    | nil => rw [List.append_nil, List.splitOn_eq_singleton unbroken, List.getElem?_cons_zero]
    | cons c below =>
        cases followed c rfl
        rw [List.splitOn_append_cons_self_of_not_mem unbroken, List.getElem?_cons_zero]
  obtain rfl | ⟨front, last, rfl⟩ := List.eq_nil_or_concat' above
  · exact first
  · cases ended last (by simp)
    have count_eq : (front ++ ['\n']).count '\n' = (front.splitOn '\n').length := by
      rw [length_splitOn, List.count_append, List.count_singleton_self]
    rw [List.append_assoc, List.singleton_append, List.splitOn_append_cons_self, count_eq,
      List.getElem?_append_right (Nat.le_refl _), Nat.sub_self]
    exact first

/-! ## Steps of the division -/

section

variable {finished : Array String} {current : List Char} {c : Char} {rest : List Char}

theorem linesFrom_of_pair :
    linesFrom finished current ('\r' :: '\n' :: rest) =
      linesFrom (finished.push (String.ofList current.reverse)) [] rest := rfl

theorem linesFrom_of_lineEnd
    (ends : isLineEnd c = true)
    (single : c = '\r' → rest.head? ≠ some '\n') :
    linesFrom finished current (c :: rest) =
      linesFrom (finished.push (String.ofList current.reverse)) [] rest := by
  rw [linesFrom.eq_def]
  split
  · next empty => cases empty
  · next same =>
      cases same
      exact absurd rfl (single rfl)
  · next same =>
      cases same
      rw [if_pos ends]

theorem linesFrom_of_other
    (inside : isLineEnd c = false) :
    linesFrom finished current (c :: rest) = linesFrom finished (c :: current) rest := by
  rw [linesFrom.eq_def]
  split
  · next empty => cases empty
  · next same =>
      cases same
      cases inside
  · next same =>
      cases same
      rw [inside]
      rfl

theorem strayEnds_of_single
    (single : c = '\r' → rest.head? ≠ some '\n') :
    strayEnds (c :: rest) = (if isLineEnd c && c != '\n' then 1 else 0) + strayEnds rest := by
  rw [strayEnds]
  rintro tail rfl rfl
  exact single rfl rfl

end

/-- A row that no separator breaks is finished by the line feed behind it. -/
theorem linesFrom_row
    {line : List Char}
    (inside : ∀ c ∈ line, isLineEnd c = false)
    (finished : Array String)
    (current rest : List Char) :
    linesFrom finished current (line ++ '\n' :: rest) =
      linesFrom (finished.push (String.ofList (current.reverse ++ line))) [] rest := by
  induction line generalizing current with
  | nil => rw [List.nil_append, linesFrom_of_lineEnd rfl (by simp), List.append_nil]
  | cons c line hypothesis =>
      rw [List.forall_mem_cons] at inside
      rw [List.cons_append, linesFrom_of_other inside.1, hypothesis inside.2]
      simp

/-- Lines that are finished stay at the front. -/
theorem toList_prefix_linesFrom
    (finished : Array String)
    (current text : List Char) :
    finished.toList <+: linesFrom finished current text := by
  fun_induction linesFrom finished current text with
  | case1 => exact List.prefix_rfl
  | case2 => simp
  | case3 finished current rest hypothesis =>
      exact List.IsPrefix.trans (by simp) hypothesis
  | case4 finished current c rest _ ends hypothesis =>
      exact List.IsPrefix.trans (by simp) hypothesis
  | case5 finished current c rest _ _ hypothesis => exact hypothesis

theorem getElem?_linesFrom_push
    (finished : Array String)
    (line : String)
    (text : List Char) :
    (linesFrom (finished.push line) [] text)[finished.size]? = some line := by
  obtain ⟨later, lines_eq⟩ := toList_prefix_linesFrom (finished.push line) [] text
  rw [← lines_eq, Array.toList_push]
  simp

/-- The next line is what is read of it and what follows up to a separator. -/
theorem getElem?_linesFrom
    (finished : Array String)
    (current text : List Char)
    (filled : current = [] → text ≠ []) :
    (linesFrom finished current text)[finished.size]? =
      some (String.ofList (current.reverse ++ firstPart text)) := by
  fun_induction linesFrom finished current text with
  | case1 finished current empty => exact absurd rfl (filled (List.isEmpty_iff.mp empty))
  | case2 finished current filled => simp [firstPart]
  | case3 finished current rest _ =>
      rw [getElem?_linesFrom_push, firstPart, List.takeWhile_cons_of_neg (by decide),
        List.append_nil]
  | case4 finished current c rest _ ends _ =>
      rw [getElem?_linesFrom_push, firstPart, List.takeWhile_cons_of_neg (by simp [ends]),
        List.append_nil]
  | case5 finished current c rest _ inside hypothesis =>
      rw [hypothesis (by simp), firstPart, firstPart,
        List.takeWhile_cons_of_pos (by simp [inside])]
      simp

/-! ## Text above a line -/

section

variable {c : Char} {text : List Char}

theorem Ended.tail
    (ended : Ended (c :: text)) :
    Ended text := by
  intro last found
  apply ended
  rw [List.getLast?_cons, found]
  rfl

/-- Nothing behind a line can join its last separator. -/
theorem Ended.single
    (ended : Ended (c :: text))
    (single : ∀ rest, c = '\r' → text = '\n' :: rest → False)
    (rest : List Char) :
    c = '\r' → (text ++ rest).head? ≠ some '\n' := by
  rintro rfl
  cases text with
  | nil => cases ended '\r' rfl
  | cons next text =>
      intro same
      cases same
      exact single text rfl rfl

/-- Text that ends with a line is divided by itself. -/
theorem linesFrom_append
    (finished : Array String)
    (current rest : List Char)
    (ended : Ended text)
    (opened : text = [] → current = []) :
    linesFrom finished current (text ++ rest) =
      linesFrom (linesFrom finished current text).toArray [] rest := by
  fun_induction linesFrom finished current text with
  | case1 finished current empty =>
      rw [List.isEmpty_iff.mp empty]
      rfl
  | case2 finished current filled =>
      rw [opened rfl] at filled
      exact absurd rfl filled
  | case3 finished current text hypothesis =>
      rw [List.cons_append, List.cons_append, linesFrom_of_pair]
      exact hypothesis ended.tail.tail (by simp)
  | case4 finished current c text single ends hypothesis =>
      rw [List.cons_append, linesFrom_of_lineEnd ends (ended.single single rest)]
      exact hypothesis ended.tail (by simp)
  | case5 finished current c text _ inside hypothesis =>
      rw [List.cons_append, linesFrom_of_other (eq_false_of_ne_true inside)]
      apply hypothesis ended.tail
      rintro rfl
      cases ended c rfl
      cases inside rfl

/-- Text that ends with a line has a line on paper for every line feed and every stray end. -/
theorem length_linesFrom
    (finished : Array String)
    (current : List Char)
    (ended : Ended text)
    (opened : text = [] → current = []) :
    (linesFrom finished current text).length =
      finished.size + text.count '\n' + strayEnds text := by
  fun_induction linesFrom finished current text with
  | case1 finished current empty => simp [strayEnds]
  | case2 finished current filled =>
      rw [opened rfl] at filled
      exact absurd rfl filled
  | case3 finished current text hypothesis =>
      rw [hypothesis ended.tail.tail (by simp), strayEnds, List.count_cons_of_ne (by decide),
        List.count_cons_self, Array.size_push]
      omega
  | case4 finished current c text single ends hypothesis =>
      have alone := ended.single single []
      rw [List.append_nil] at alone
      rw [hypothesis ended.tail (by simp), strayEnds_of_single alone, ends, Array.size_push,
        List.count_cons]
      by_cases feed : c = '\n' <;> simp [feed] <;> omega
  | case5 finished current c text single inside hypothesis =>
      have alone := ended.single single []
      have inner := eq_false_of_ne_true inside
      have other : c ≠ '\n' := by
        rintro rfl
        cases inner
      rw [List.append_nil] at alone
      rw [strayEnds_of_single alone, inner, List.count_cons_of_ne other]
      rw [hypothesis ended.tail]
      · simp
      · rintro rfl
        exact absurd (ended c rfl) other

end

/-- Stray ends above a line are counted apart from those behind it. -/
theorem strayEnds_append
    {text : List Char}
    (ended : Ended text)
    (rest : List Char) :
    strayEnds (text ++ rest) = strayEnds text + strayEnds rest := by
  fun_induction strayEnds text with
  | case1 => rw [List.nil_append, Nat.zero_add]
  | case2 text hypothesis =>
      rw [List.cons_append, List.cons_append, strayEnds]
      exact hypothesis ended.tail.tail
  | case3 c text single hypothesis =>
      rw [List.cons_append, strayEnds_of_single (ended.single single rest),
        hypothesis ended.tail, Nat.add_assoc]

/-! ## Lines by their numbers -/

/-- What follows a line is not shown on it. -/
theorem firstPart_append
    (line : List Char)
    {below : List Char}
    (followed : ∀ c ∈ below.head?, c = '\n') :
    firstPart (line ++ below) = firstPart line := by
  induction line with
  | nil =>
      cases below with
      | nil => rfl
      | cons c below =>
          cases followed c rfl
          rfl
  | cons c line hypothesis =>
      rw [firstPart, firstPart, List.cons_append, List.takeWhile_cons, List.takeWhile_cons,
        ← firstPart, hypothesis, ← firstPart]

/-- The line on paper with the number of a line of the source is its first part, or a line of the
text above it if stray ends stand there. -/
theorem getElem?_linesFrom_of_isLine
    {text above line below : List Char}
    (isLine : IsLine text above line below)
    (filled : line ≠ []) :
    (linesFrom #[] [] text)[above.count '\n']? =
      if strayEnds above = 0 then some (String.ofList (firstPart line))
      else (linesFrom #[] [] above)[above.count '\n']? := by
  obtain ⟨rfl, ended, unbroken, followed⟩ := isLine
  have length_eq := length_linesFrom #[] [] ended (by simp)
  rw [Array.size_empty, Nat.zero_add] at length_eq
  rw [linesFrom_append #[] [] (line ++ below) ended (by simp)]
  split
  · next clean =>
      have index_eq : above.count '\n' = (linesFrom #[] [] above).toArray.size := by
        rw [List.size_toArray, length_eq, clean, Nat.add_zero]
      rw [index_eq, getElem?_linesFrom _ [] _ (by simp [filled]), firstPart_append line followed]
      rfl
  · next stray =>
      obtain ⟨later, lines_eq⟩ :=
        toList_prefix_linesFrom (linesFrom #[] [] above).toArray [] (line ++ below)
      rw [← lines_eq, List.getElem?_append_left]
      rw [length_eq]
      omega

/-! ## Blanks at the ends of a line -/

theorem countP_dropWhile_isBlank (text : List Char) :
    (text.dropWhile isBlank).countP (fun c => !isBlank c) = text.countP (fun c => !isBlank c) := by
  induction text with
  | nil => rfl
  | cons c text hypothesis =>
      rw [List.dropWhile_cons, List.countP_cons]
      split
      · next blank =>
          rw [hypothesis, blank]
          rfl
      · rw [List.countP_cons]

/-- A text keeps all but its blanks. -/
theorem countP_strip (text : List Char) :
    (strip (String.ofList text)).toList.countP (fun c => !isBlank c) =
      text.countP fun c => !isBlank c := by
  rw [strip, String.toList_ofList, String.toList_ofList, List.countP_reverse,
    countP_dropWhile_isBlank, List.countP_reverse, countP_dropWhile_isBlank]

/-- Blanks behind a text change nothing. -/
theorem strip_append_of_blank
    (text : List Char)
    {more : List Char}
    (blank : ∀ c ∈ more, isBlank c = true) :
    strip (String.ofList (text ++ more)) = strip (String.ofList text) := by
  have dropped : more.dropWhile isBlank = [] := List.dropWhile_eq_nil_iff.mpr blank
  have reversed : ∀ c ∈ more.reverse, isBlank c = true := by simpa using blank
  rw [strip, strip, String.toList_ofList, String.toList_ofList, List.dropWhile_append]
  split
  · next empty => rw [dropped, List.isEmpty_iff.mp empty]
  · rw [List.reverse_append, List.dropWhile_append_of_pos reversed]

/-- The first part of a line shows it exactly when nothing else on it can be seen. -/
theorem strip_firstPart_eq_iff (line : List Char) :
    strip (String.ofList (firstPart line)) = strip (String.ofList line) ↔
      ∀ c ∈ otherParts line, isBlank c = true := by
  have parts : firstPart line ++ otherParts line = line := List.takeWhile_append_dropWhile
  constructor
  · intro same
    have counted := congrArg (fun text => text.toList.countP fun c => !isBlank c) same
    rw [countP_strip, countP_strip] at counted
    nth_rewrite 2 [← parts] at counted
    rw [List.countP_append, Nat.left_eq_add, List.countP_eq_zero] at counted
    simpa using counted
  · intro blank
    rw [← strip_append_of_blank (firstPart line) blank, parts]

/-- Without stray ends nothing on a line stands behind a separator, except for a carriage return
at its end. -/
theorem isBlank_of_strayEnds_eq_zero
    {line below : List Char}
    (unbroken : '\n' ∉ line)
    (clean : strayEnds (line ++ below) = 0) :
    ∀ c ∈ otherParts line, isBlank c = true := by
  induction line with
  | nil => simp [otherParts]
  | cons c line hypothesis =>
      rw [List.mem_cons, not_or] at unbroken
      by_cases single : c = '\r' → (line ++ below).head? ≠ some '\n'
      · rw [List.cons_append, strayEnds_of_single single, Nat.add_eq_zero_iff] at clean
        have inside : isLineEnd c = false := by
          by_contra ends
          simp [eq_true_of_ne_false ends, Ne.symm unbroken.1] at clean
        rw [otherParts, List.dropWhile_cons_of_pos (by rw [inside]; rfl)]
        exact hypothesis unbroken.2 clean.2
      · push Not at single
        obtain ⟨rfl, next⟩ := single
        cases line with
        | nil =>
            have alone : otherParts ['\r'] = ['\r'] := rfl
            rw [alone, List.forall_mem_singleton]
            rfl
        | cons next line =>
            cases next
            simp at unbroken

/-- Whether a line of a source is found on paper under its number. -/
def IsShown (above line : List Char) : Prop :=
  if strayEnds above = 0 then ∀ c ∈ otherParts line, isBlank c = true
  else
    ∃ other, (lines (String.ofList above))[above.count '\n']? = some other ∧
      strip other = strip (String.ofList line)

/-- In a source without stray ends every line is found. -/
theorem IsLine.isShown
    {text above line below : List Char}
    (isLine : IsLine text above line below)
    (clean : strayEnds text = 0) :
    IsShown above line := by
  rw [isLine.text_eq, strayEnds_append isLine.ended, Nat.add_eq_zero_iff] at clean
  rw [IsShown, if_pos clean.1]
  exact isBlank_of_strayEnds_eq_zero isLine.unbroken clean.2

/-- Some line on paper has the number of a line of the source. It shows that line exactly when the
line is found there. -/
theorem IsLine.exists_shown
    {text above line below : List Char}
    (isLine : IsLine text above line below)
    (filled : line ≠ []) :
    ∃ shown, (linesFrom #[] [] text)[above.count '\n']? = some shown ∧
      (strip shown = strip (String.ofList line) ↔ IsShown above line) := by
  rw [getElem?_linesFrom_of_isLine isLine filled, IsShown, lines, String.toList_ofList]
  split
  · exact ⟨String.ofList (firstPart line), rfl, strip_firstPart_eq_iff line⟩
  · next stray =>
      have inside : above.count '\n' < (linesFrom #[] [] above).length := by
        rw [length_linesFrom #[] [] isLine.ended (by simp)]
        omega
      rw [List.getElem?_eq_getElem inside]
      exact ⟨_, rfl, by simp⟩

end Text
end WordAsm
