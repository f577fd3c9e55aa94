import WordAsm.Proofs.Token.FaultPlaces

/-!
# What a caret points at

Two causes name the character that a source cannot be read for. A digit that its number cannot have
is found before it is passed, and the caret stands under it. A character that starts no lexeme is
passed first, and the caret stands under what follows: behind the character, and under a character
like it only if there are two in a row.
-/

namespace WordAsm

/-- The character that the message of a cause blames. -/
def Cause.blamed? : Cause → Option Char
  | .unexpectedCharacter c | .invalidDigit c => some c
  | _ => none

/-! ## Carets -/

namespace Diagnostic

/-- Whether the caret of a diagnostic stands under a character: its line follows the source line and
holds as many blanks as there are characters before that one. -/
def PointsAt
    (diagnostic : Diagnostic)
    (c : Char) : Prop :=
  ∃ shown indent, diagnostic.excerpt =
      [shown, String.ofList (List.replicate indent ' ' ++ ['^'])] ∧
    shown.toList[indent]? = some c

/-- The caret stands under the character of the source line that the column counts. -/
theorem pointsAt_iff
    {diagnostic : Diagnostic}
    {line : String}
    {location : Location}
    {index : Nat}
    (line_eq : diagnostic.sourceLine = some line)
    (location_eq : diagnostic.location = some location)
    (column_eq : location.column = index + 1)
    (c : Char) :
    diagnostic.PointsAt c ↔ line.toList[index]? = some c := by
  have shown_eq : (s!"    {line}").toList = List.replicate 4 ' ' ++ line.toList := by
    rw [String.toList_append]
    rfl
  have excerpt_eq : diagnostic.excerpt =
      [s!"    {line}", String.ofList (List.replicate (4 + index) ' ' ++ ['^'])] := by
    have indent_eq : (4 + location.column - 1).toNat = 4 + index := by omega
    rw [excerpt, line_eq, location_eq]
    dsimp only
    rw [if_pos (by omega), indent_eq]
  have shown_at : (s!"    {line}").toList[4 + index]? = line.toList[index]? := by
    rw [shown_eq, List.getElem?_append_right (by simp), List.length_replicate,
      Nat.add_sub_cancel_left]
  rw [PointsAt, excerpt_eq]
  constructor
  · rintro ⟨shown, indent, same, found⟩
    obtain ⟨rfl, carets⟩ := List.cons.inj same
    have lengths := congrArg String.length (List.cons.inj carets).1
    simp only [String.length_ofList, List.length_append, List.length_replicate] at lengths
    obtain rfl : 4 + index = indent := Nat.add_right_cancel lengths
    rwa [shown_at] at found
  · intro found
    exact ⟨_, 4 + index, rfl, by rw [shown_at, found]⟩

end Diagnostic

/-! ## Blamed characters -/

namespace Lexeme

/-- A number blames the character that runs into it, which stands where the error is reported. -/
theorem blamed_of_scanNumeral
    {text : List Char}
    {cause : Cause}
    {offset : Nat}
    {blamed : Char}
    (failed : scanNumeral text = .error (.malformed cause offset))
    (blames : cause.blamed? = some blamed) :
    blamed ≠ '\n' ∧ cause = .invalidDigit blamed ∧ (text.drop offset).head? = some blamed := by
  obtain ⟨radix, announcement, digits, rest, rfl, _, _, outcome⟩ := exists_scanNumeral_eq text
  rw [outcome] at failed
  split at failed
  · cases failed
    cases blames
  · split at failed
    · next c ran =>
        cases failed
        cases blames
        obtain ⟨first, named⟩ := Option.filter_eq_some_iff.mp ran
        refine ⟨?_, rfl, ?_⟩
        · rintro rfl
          cases named
        · rw [List.drop_left]
          exact first
    · split at failed <;> cases failed

/-- A character that starts no lexeme is passed before it is blamed. One that runs into a number is
blamed where it stands. -/
theorem blamed_of_scan
    {c : Char}
    {rest : List Char}
    {cause : Cause}
    {offset : Nat}
    {blamed : Char}
    (failed : scan c rest = .error (.malformed cause offset))
    (blames : cause.blamed? = some blamed) :
    blamed ≠ '\n' ∧
      (cause = .unexpectedCharacter blamed ∧ blamed = c ∧ offset = 1 ∨
        cause = .invalidDigit blamed ∧ ((c :: rest).drop offset).head? = some blamed) := by
  obtain ⟨_, word⟩ | ⟨_, number⟩ | ⟨rfl, negative⟩ | ⟨_, marker⟩ | ⟨_, character⟩ |
    ⟨unbroken, same⟩ := cases_of_scan_error failed
  · unfold scanWord at word
    dsimp only at word
    split at word
    · split at word <;> cases word
      cases blames
    · cases word
  · unfold scanNumber at number
    split at number
    · cases number
    · next numeral =>
        cases number
        exact (blamed_of_scanNumeral numeral blames).imp_right .inr
  · unfold scanNegative at negative
    split at negative
    · cases negative
      cases blames
    · split at negative
      · cases negative
      · next numeral =>
          cases negative
          exact (blamed_of_scanNumeral numeral blames).imp_right .inr
      · cases negative
  · unfold scanMarker at marker
    split at marker <;> cases marker
    cases blames
  -- A literal is refused for its quotes and escapes, never for a character.
  · have blameless : ∀ cause ∈ characterCauses, cause.blamed? = none := by decide
    obtain ⟨_, listed, _, same⟩ := exists_cause_of_scanCharacter character
    cases same
    rw [blameless cause listed] at blames
    cases blames
  · cases same
    cases blames
    exact ⟨unbroken, .inl ⟨rfl, rfl, rfl⟩⟩

end Lexeme

namespace Token

/-- A blamed character stands on the line of its fault, one or two columns before the column of the
fault, which counts from one. -/
theorem exists_blamed
    {source file : String}
    {fault : Fault}
    {c : Char}
    (failed : (read source file).failure = some (.program fault))
    (blames : fault.cause.blamed? = some c) :
    ∃ line location left right, fault.sourceLine = some line ∧ fault.location = some location ∧
      line.toList = left ++ c :: right ∧
      (fault.cause = .invalidDigit c ∧ location.column = left.length + 1 ∨
        fault.cause = .unexpectedCharacter c ∧ location.column = left.length + 2) := by
  obtain ⟨before, _, first, rest, offset, _, _, refused, _, location_eq, line_eq⟩ :=
    exists_cut_of_fault failed
  obtain ⟨unbroken, ⟨cause, rfl, rfl⟩ | ⟨cause, standing⟩⟩ := Lexeme.blamed_of_scan refused blames
  -- One character has been passed, so it is the last of the text before the place of the fault.
  · have left_eq : (before ++ [c]).rtakeWhile (· != '\n') =
        before.rtakeWhile (· != '\n') ++ [c] :=
      List.rtakeWhile_concat_pos _ _ _ (bne_iff_ne.mpr unbroken)
    refine ⟨_, _, before.rtakeWhile (· != '\n'), rest.takeWhile (· != '\n'), line_eq, location_eq,
      ?_, .inr ⟨cause, ?_⟩⟩
    · rw [String.toList_ofList, List.take_succ_cons, List.take_zero, List.drop_succ_cons,
        List.drop_zero, Text.lineAround, left_eq, List.append_assoc, List.singleton_append]
    · rw [List.take_succ_cons, List.take_zero, Location.behind, left_eq, List.length_append,
        List.length_singleton]
      push_cast
      omega
  -- The digit is the first character behind that place.
  · obtain ⟨tail, behind_eq⟩ := List.head?_eq_some_iff.mp standing
    refine ⟨_, _, (before ++ (first :: rest).take offset).rtakeWhile (· != '\n'),
      tail.takeWhile (· != '\n'), line_eq, location_eq, ?_, .inl ⟨cause, rfl⟩⟩
    have right_eq : (c :: tail).takeWhile (· != '\n') = c :: tail.takeWhile (· != '\n') :=
      List.takeWhile_cons_of_pos (bne_iff_ne.mpr unbroken)
    rw [behind_eq, Text.lineAround, right_eq, String.toList_ofList]

/-- The caret of a fault that blames a character stands under the character that the column counts
on the source line. If a digit is blamed, that is the digit. If a character is blamed that starts no
lexeme, it is the one behind it, so the caret is right only where the character is repeated. -/
theorem caret_of_blamed
    {source file : String}
    {fault : Fault}
    {c : Char}
    (failed : (read source file).failure = some (.program fault))
    (blames : fault.cause.blamed? = some c) :
    ∃ line location left right, fault.sourceLine = some line ∧ fault.location = some location ∧
      line.toList = left ++ c :: right ∧
      location.column = left.length + (if fault.cause = .invalidDigit c then 1 else 2) ∧
      (fault.diagnostic.PointsAt c ↔ line.toList[(location.column - 1).toNat]? = some c) ∧
      (fault.diagnostic.PointsAt c ↔ fault.cause = .invalidDigit c ∨ right.head? = some c) := by
  obtain ⟨line, location, left, right, line_eq, location_eq, text_eq, place⟩ :=
    exists_blamed failed blames
  refine ⟨line, location, left, right, line_eq, location_eq, text_eq, ?_⟩
  obtain ⟨digit, column_eq⟩ | ⟨unexpected, column_eq⟩ := place
  · have index_eq : (location.column - 1).toNat = left.length := by omega
    rw [Diagnostic.pointsAt_iff line_eq location_eq column_eq, if_pos digit, index_eq, text_eq]
    simp [digit, column_eq]
  · have column_eq' : location.column = (left.length + 1 : Nat) + 1 := by
      push_cast
      omega
    have index_eq : (location.column - 1).toNat = left.length + 1 := by omega
    have behind_eq : (left ++ c :: right)[left.length + 1]? = right.head? := by
      rw [List.getElem?_append_right (by omega), Nat.add_sub_cancel_left,
        List.getElem?_cons_succ, List.head?_eq_getElem?]
    rw [Diagnostic.pointsAt_iff line_eq location_eq column_eq', index_eq, text_eq, behind_eq]
    simp [unexpected, column_eq]

/-- A number with a letter in it, and a character that starts no lexeme. -/
theorem caret_of_blamed_at_letter_and_questionMark :
    let digit : Fault := {
      cause := .invalidDigit 'a'
      location := some { line := 2, column := 7 }
      sourceLine := some "OUT 12ab" }
    let unexpected : Fault := {
      cause := .unexpectedCharacter '?'
      location := some { line := 2, column := 6 }
      sourceLine := some "OUT ?" }
    (read ".code\nOUT 12ab\n").failure = some (.program digit) ∧
      digit.diagnostic.PointsAt 'a' ∧
      (read ".code\nOUT ?\n").failure = some (.program unexpected) ∧
      ¬ unexpected.diagnostic.PointsAt '?' := by
  intro digit unexpected
  have digitFails : (read ".code\nOUT 12ab\n").failure = some (.program digit) := by
    decide +kernel
  have unexpectedFails : (read ".code\nOUT ?\n").failure = some (.program unexpected) := by
    decide +kernel
  refine ⟨digitFails, ?_, unexpectedFails, ?_⟩
  · obtain ⟨_, _, _, _, _, _, _, _, _, caret⟩ := caret_of_blamed digitFails rfl
    exact caret.mpr (.inl rfl)
  · obtain ⟨line, location, _, _, line_eq, location_eq, _, _, caret, _⟩ :=
      caret_of_blamed unexpectedFails rfl
    cases line_eq
    cases location_eq
    rw [caret]
    decide

end Token
end WordAsm
