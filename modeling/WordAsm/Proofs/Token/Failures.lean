import WordAsm.Proofs.Failure
import WordAsm.Proofs.Token.Spans

/-!
# Where a source cannot be read

A source cannot be read exactly if no lexeme can be read behind a part of it that is cut into
lexemes. The failure is then reported, unless what stands there is a decimal numeral beyond the
limit.
-/

namespace WordAsm
namespace Lexeme

/-! ## Numerals beyond the limit -/

/-- Whether a text starts with more decimal digits than are read, and no name runs into them. -/
def StartsWithDigits
    (text : List Char)
    (count : Nat) : Prop :=
  ∃ digits rest, text = digits ++ rest ∧ (∀ c ∈ digits, c.isDigit = true) ∧
    digits.length = count ∧ 4300 < count ∧ ∀ c ∈ rest.head?, isNameCharacter c = false

/-- Whether a text starts with a decimal numeral beyond the limit, with or without a minus sign. -/
def StartsWithLongNumeral
    (text : List Char)
    (count : Nat) : Prop :=
  StartsWithDigits text count ∨ ∃ rest, text = '-' :: rest ∧ StartsWithDigits rest count

theorem scanNumeral_of_startsWithDigits
    {text : List Char}
    {count : Nat}
    (long : StartsWithDigits text count) :
    scanNumeral text = .error (.longNumeral count) := by
  obtain ⟨digits, rest, rfl, all, rfl, long, stops⟩ := long
  have nonempty : digits ≠ [] := by
    rintro rfl
    cases long
  have read := scanNumeral_append Radix.Announced.bare nonempty all stops
  rwa [if_pos ⟨rfl, long⟩] at read

theorem StartsWithDigits.exists_isDigit
    {text : List Char}
    {count : Nat}
    (long : StartsWithDigits text count) :
    ∃ c rest, text = c :: rest ∧ c.isDigit = true := by
  obtain ⟨digits, rest, rfl, all, rfl, long, _⟩ := long
  cases digits with
  | nil => cases long
  | cons c digits => exact ⟨c, digits ++ rest, rfl, all c List.mem_cons_self⟩

/-- A numeral beyond the limit is not read. -/
theorem scan_of_startsWithLongNumeral
    {c : Char}
    {rest : List Char}
    {count : Nat}
    (long : StartsWithLongNumeral (c :: rest) count) :
    scan c rest = .error (.longNumeral count) := by
  obtain long | ⟨rest, same, long⟩ := long
  · obtain ⟨digit, tail, same, isDigit⟩ := long.exists_isDigit
    cases same
    rw [scan_of_isDigit isDigit, scanNumber, scanNumeral_of_startsWithDigits long]
  · cases same
    obtain ⟨digit, tail, rfl, isDigit⟩ := long.exists_isDigit
    have signed : scan '-' (digit :: tail) = scanNegative (digit :: tail) := rfl
    rw [signed, scanNegative, List.head?_cons,
      Option.filter_some_pos (isDigit_of_isDigit isDigit)]
    dsimp only
    rw [scanNumeral_of_startsWithDigits long]

/-! ## Reasons why no lexeme can be read -/

/-- The reason of an error at the start of a text: a numeral beyond the limit, or a cause whose
message can be written. -/
def Error.HasReason
    (text : List Char) : Error → Prop
  | .longNumeral count => StartsWithLongNumeral text count
  | .malformed cause _ => cause.isWritable = true

theorem hasReason_of_scanNumeral
    {text : List Char}
    {error : Error}
    (failed : scanNumeral text = .error error) :
    match error with
    | .longNumeral count => StartsWithDigits text count
    | .malformed cause _ => cause.isWritable = true := by
  obtain ⟨radix, announcement, digits, rest, rfl, announced, all, outcome⟩ :=
    exists_scanNumeral_eq text
  rw [outcome] at failed
  split at failed
  · cases failed
    rfl
  · split at failed
    · cases failed
      rfl
    · next ended =>
        split at failed
        · next long =>
            cases failed
            obtain ⟨rfl, long⟩ := long
            refine ⟨digits, rest, by rw [announced.eq_nil, List.nil_append], all, rfl, long, ?_⟩
            intro c first
            simpa using (Option.filter_eq_none_iff.mp ended) c first
        · cases failed

theorem hasReason_of_scanWord
    {text : List Char}
    {error : Error}
    (failed : scanWord text = .error error) :
    error.HasReason text := by
  unfold scanWord at failed
  dsimp only at failed
  split at failed
  · split at failed
    · cases failed
      rfl
    · cases failed
  · cases failed

theorem hasReason_of_scanNumber
    {text : List Char}
    {error : Error}
    (failed : scanNumber text = .error error) :
    error.HasReason text := by
  unfold scanNumber at failed
  split at failed
  · cases failed
  · next numeral =>
      cases failed
      have reason := hasReason_of_scanNumeral numeral
      cases error with
      | longNumeral count => exact .inl reason
      | malformed cause offset => exact reason

theorem hasReason_of_scanNegative
    {rest : List Char}
    {error : Error}
    (failed : scanNegative rest = .error error) :
    error.HasReason ('-' :: rest) := by
  unfold scanNegative at failed
  split at failed
  · cases failed
    rfl
  · split at failed
    · cases failed
    · next cause offset numeral =>
        cases failed
        exact hasReason_of_scanNumeral numeral
    · next count numeral =>
        cases failed
        exact .inr ⟨rest, rfl, hasReason_of_scanNumeral numeral⟩

theorem hasReason_of_scanMarker
    {rest text : List Char}
    {error : Error}
    (failed : scanMarker rest = .error error) :
    error.HasReason text := by
  unfold scanMarker at failed
  split at failed
  · cases failed
    rfl
  · cases failed

/-- What can be wrong with a character literal. -/
def characterCauses : List Cause :=
  [.openCharacter, .openEscape, .noHexDigits, .noClosingQuote]

theorem exists_cause_of_scanCharacter
    {rest : List Char}
    {error : Error}
    (failed : scanCharacter rest = .error error) :
    ∃ cause ∈ characterCauses, ∃ offset, error = .malformed cause offset := by
  unfold scanCharacter at failed
  split at failed
  · next quoted =>
      cases failed
      unfold scanQuoted at quoted
      split at quoted
      · cases quoted
        exact ⟨.openCharacter, by simp [characterCauses], 1, rfl⟩
      · cases quoted
        exact ⟨.openCharacter, by simp [characterCauses], 1, rfl⟩
      · cases quoted
        exact ⟨.openEscape, by simp [characterCauses], 2, rfl⟩
      · dsimp only at quoted
        split at quoted
        · cases quoted
          exact ⟨.noHexDigits, by simp [characterCauses], 3, rfl⟩
        · cases quoted
      · cases quoted
      · cases quoted
  · split at failed
    · cases failed
    · cases failed
      exact ⟨.noClosingQuote, by simp [characterCauses], _, rfl⟩

theorem hasReason_of_scanCharacter
    {rest text : List Char}
    {error : Error}
    (failed : scanCharacter rest = .error error) :
    error.HasReason text := by
  have writable : ∀ cause ∈ characterCauses, cause.isWritable = true := by decide
  obtain ⟨cause, listed, offset, rfl⟩ := exists_cause_of_scanCharacter failed
  exact writable cause listed

/-- The first character decides which reader fails. One that starts no lexeme fails by itself. -/
theorem cases_of_scan_error
    {c : Char}
    {rest : List Char}
    {error : Error}
    (failed : scan c rest = .error error) :
    isNameStart c = true ∧ scanWord (c :: rest) = .error error ∨
      Text.isDigit c = true ∧ scanNumber (c :: rest) = .error error ∨
      c = '-' ∧ scanNegative rest = .error error ∨
      c = '.' ∧ scanMarker rest = .error error ∨
      c = '\'' ∧ scanCharacter rest = .error error ∨
      c ≠ '\n' ∧ error = .malformed (.unexpectedCharacter c) 1 := by
  unfold scan at failed
  split at failed
  · cases failed
  · split at failed
    · cases failed
    · split at failed
      · cases failed
      · next unbroken =>
          split at failed
          · next starts => exact .inl ⟨starts, failed⟩
          · split at failed
            · next digit => exact .inr (.inl ⟨digit, failed⟩)
            · split at failed
              · next minus => exact .inr (.inr (.inl ⟨minus, failed⟩))
              · split at failed
                · next dot => exact .inr (.inr (.inr (.inl ⟨dot, failed⟩)))
                · split at failed
                  · next quote => exact .inr (.inr (.inr (.inr (.inl ⟨quote, failed⟩))))
                  · split at failed
                    · cases failed
                    · cases failed
                      exact .inr (.inr (.inr (.inr (.inr ⟨unbroken, rfl⟩))))

/-- Every error has a reason. -/
theorem hasReason_of_scan
    {c : Char}
    {rest : List Char}
    {error : Error}
    (failed : scan c rest = .error error) :
    error.HasReason (c :: rest) := by
  obtain ⟨_, word⟩ | ⟨_, number⟩ | ⟨rfl, negative⟩ | ⟨_, marker⟩ | ⟨_, character⟩ | ⟨_, rfl⟩ :=
    cases_of_scan_error failed
  · exact hasReason_of_scanWord word
  · exact hasReason_of_scanNumber number
  · exact hasReason_of_scanNegative negative
  · exact hasReason_of_scanMarker marker
  · exact hasReason_of_scanCharacter character
  · rfl

end Lexeme

/-! ## Reading up to a failure -/

namespace Token

open Lexeme

/-- A source cannot be read exactly if no lexeme can be read behind a part of it that is cut. -/
theorem ofSource_eq_error_iff
    (source file : String)
    (failure : Failure) :
    ofSource source file = .error failure ↔
      ∃ text pieces c rest error, source.toList = text ++ c :: rest ∧
        Cut (c :: rest) text pieces ∧ scan c rest = .error error ∧
        failure = error.failure file ((Cursor.start source.toList 1).skip text.length) := by
  constructor
  · intro failed
    obtain ⟨text, pieces, rest, standing, cut, ended⟩ := exists_cut source.toList
    obtain rfl | ⟨c, tail, error, rfl, refused⟩ := ended
    · rw [List.append_nil] at standing
      subst standing
      rw [ofSource, read_of_cut_nil cut] at failed
      cases failed
    · rw [ofSource, read_of_cut_error cut standing refused] at failed
      cases failed
      exact ⟨text, pieces, c, tail, error, standing, cut, refused, rfl⟩
  · rintro ⟨text, pieces, c, rest, error, standing, cut, refused, rfl⟩
    rw [ofSource, read_of_cut_error cut standing refused]
    rfl

/-- Whether a text holds a decimal numeral beyond the limit that is reached by reading it. -/
def HoldsLongNumeral
    (text : List Char)
    (count : Nat) : Prop :=
  ∃ front pieces rest, text = front ++ rest ∧ Cut rest front pieces ∧
    StartsWithLongNumeral rest count

/-- A source that cannot be read is reported, or holds a numeral beyond the limit. -/
theorem explained_ofSource
    {source file : String}
    {failure : Failure}
    (failed : ofSource source file = .error failure) :
    failure.IsReport ∨
      ∃ count, failure = .longNumeral count ∧ HoldsLongNumeral source.toList count := by
  obtain ⟨text, pieces, c, rest, error, source_eq, cut, refused, rfl⟩ :=
    (ofSource_eq_error_iff ..).mp failed
  have reason := hasReason_of_scan refused
  cases error with
  | longNumeral count => exact .inr ⟨count, rfl, text, pieces, c :: rest, source_eq, cut, reason⟩
  | malformed cause offset => exact .inl (Failure.isReport_ofFault reason)

theorem ofSource_eq_longNumeral_iff
    (source file : String)
    (count : Nat) :
    ofSource source file = .error (.longNumeral count) ↔
      HoldsLongNumeral source.toList count := by
  constructor
  · intro failed
    obtain ⟨_, same, _⟩ | ⟨_, same, holds⟩ := explained_ofSource failed
    · cases same
    · cases same
      exact holds
  · rintro ⟨text, pieces, rest, source_eq, cut, long⟩
    have filled : ∃ c tail, rest = c :: tail := by
      obtain long | ⟨tail, rfl, _⟩ := long
      · obtain ⟨c, tail, rfl, _⟩ := long.exists_isDigit
        exact ⟨c, tail, rfl⟩
      · exact ⟨'-', tail, rfl⟩
    obtain ⟨c, tail, rfl⟩ := filled
    exact (ofSource_eq_error_iff ..).mpr
      ⟨text, pieces, c, tail, _, source_eq, cut, scan_of_startsWithLongNumeral long, rfl⟩

end Token
end WordAsm
