import Mathlib.Data.List.Basic
import WordAsm.Files
import WordAsm.Proofs.Text.Lines
import WordAsm.Proofs.Text.Utf8

/-!
# Carriage returns in front of line feeds

Some systems put a carriage return in front of every line feed. Such a text has the same lines, and
a file that holds it is read as the text without carriage returns.
-/

namespace WordAsm
namespace Text

/-- Put a carriage return in front of every line feed. -/
def returned : List Char → List Char
  | [] => []
  | c :: rest => if c = '\n' then '\r' :: '\n' :: returned rest else c :: returned rest

/-- A text with a carriage return in front of every line feed. -/
def withReturns (text : String) : String :=
  String.ofList (returned text.toList)

/-- A text without its carriage returns. -/
def withoutReturns (text : List Char) : List Char :=
  text.filter (· != '\r')

/-- Whether every carriage return stands in front of a line feed. -/
def ReturnsPaired : List Char → Prop
  | [] => True
  | c :: rest => (c = '\r' → rest.head? = some '\n') ∧ ReturnsPaired rest

/-! ## Putting carriage returns in and taking them out -/

theorem withoutReturns_append (first second : List Char) :
    withoutReturns (first ++ second) = withoutReturns first ++ withoutReturns second :=
  List.filter_append ..

theorem withoutReturns_eq_self
    {text : List Char}
    (plain : '\r' ∉ text) :
    withoutReturns text = text := by
  rw [withoutReturns, List.filter_eq_self]
  intro c listed
  rw [bne_iff_ne]
  rintro rfl
  exact plain listed

theorem withoutReturns_returned
    {text : List Char}
    (plain : '\r' ∉ text) :
    withoutReturns (returned text) = text := by
  induction text with
  | nil => rfl
  | cons c text hypothesis =>
      rw [List.mem_cons, not_or] at plain
      have later := hypothesis plain.2
      rw [returned]
      split
      · next feed =>
          subst feed
          exact congrArg ('\n' :: ·) later
      · rw [withoutReturns, List.filter_cons_of_pos (by simpa using Ne.symm plain.1)]
        exact congrArg (c :: ·) later

theorem ReturnsPaired.of_append
    {first second : List Char}
    (paired : ReturnsPaired (first ++ second)) :
    ReturnsPaired second := by
  induction first with
  | nil => exact paired
  | cons c first hypothesis => exact hypothesis paired.2

theorem returnsPaired_returned
    {text : List Char}
    (plain : '\r' ∉ text) :
    ReturnsPaired (returned text) := by
  induction text with
  | nil => trivial
  | cons c text hypothesis =>
      rw [List.mem_cons, not_or] at plain
      have later := hypothesis plain.2
      rw [returned]
      split
      · exact ⟨fun _ => rfl, nofun, later⟩
      · exact ⟨fun same => absurd same.symm plain.1, later⟩

/-! ## Lines and files -/

theorem linesFrom_returned
    {text : List Char}
    (plain : '\r' ∉ text)
    (finished : Array String)
    (current : List Char) :
    linesFrom finished current (returned text) = linesFrom finished current text := by
  induction text generalizing finished current with
  | nil => rfl
  | cons c text hypothesis =>
      rw [List.mem_cons, not_or] at plain
      have single : c = '\r' → text.head? ≠ some '\n' := fun same => absurd same.symm plain.1
      have singleOther : c = '\r' → (returned text).head? ≠ some '\n' :=
        fun same => absurd same.symm plain.1
      rw [returned]
      split
      · next feed =>
          subst feed
          rw [linesFrom_of_pair, hypothesis plain.2, linesFrom_of_lineEnd rfl single]
      · cases ends : isLineEnd c with
        | true =>
            rw [linesFrom_of_lineEnd ends single, linesFrom_of_lineEnd ends singleOther,
              hypothesis plain.2]
        | false => rw [linesFrom_of_other ends, linesFrom_of_other ends, hypothesis plain.2]

/-- On paper carriage returns in front of line feeds make no lines. -/
theorem lines_withReturns
    {text : String}
    (plain : '\r' ∉ text.toList) :
    lines (withReturns text) = lines text := by
  rw [lines, withReturns, String.toList_ofList, linesFrom_returned plain, lines]

theorem unifyFrom_returned
    {text : List Char}
    (plain : '\r' ∉ text)
    (before : List Char) :
    unifyFrom before (returned text) = before.reverse ++ text := by
  induction text generalizing before with
  | nil => simp [returned, unifyFrom]
  | cons c text hypothesis =>
      rw [List.mem_cons, not_or] at plain
      rw [returned]
      split
      · next feed =>
          subst feed
          rw [unifyFrom, hypothesis plain.2, List.reverse_cons, List.append_assoc]
          rfl
      · rw [unifyFrom, hypothesis plain.2, List.reverse_cons, List.append_assoc]
        · rfl
        · rintro _ rfl
          exact absurd rfl plain.1
        · rintro rfl
          exact absurd rfl plain.1

end Text

/-- A file that holds a text with carriage returns is read as the text without them. -/
theorem Files.textOf_withReturns
    {text : String}
    (plain : '\r' ∉ text.toList) :
    textOf (Text.Utf8.encode (Text.withReturns text)) = .ok text := by
  rw [textOf, Text.Utf8.decode_encode, Text.withReturns, String.toList_ofList]
  dsimp only
  rw [Text.unifyLineEnds, Text.unifyFrom_returned plain, List.reverse_nil, List.nil_append,
    String.ofList_toList]

end WordAsm
