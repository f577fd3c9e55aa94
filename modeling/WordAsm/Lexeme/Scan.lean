import WordAsm.Lexeme.Numeral
import WordAsm.Machine
import WordAsm.Text.Digit

/-!
# Reading one lexeme

The first character of a text decides what lexeme it starts with. Each reader gives the
lexeme and the number of characters it takes, which is never zero.
-/

namespace WordAsm
namespace Lexeme

/-- Read a word, or a label if a colon follows at once. A label must not have the name of a
register, since no reference could tell them apart. -/
def scanWord (text : List Char) : Except Error (Lexeme × Nat) :=
  let letters := text.takeWhile isNameCharacter
  let name := String.ofList letters
  if (text.drop letters.length).head? = some ':' then
    if Machine.isRegisterName name then .error (.malformed (.registerLabel name) 0)
    else .ok (.label name, letters.length + 1)
  else .ok (.word name, letters.length)

/-- Read a section name behind its dot. -/
def scanMarker (rest : List Char) : Except Error (Lexeme × Nat) :=
  match rest.head?.filter isNameStart with
  | none => .error (.malformed .noSectionName 1)
  | some _ =>
      let letters := rest.takeWhile isNameCharacter
      .ok (.marker (String.ofList letters), letters.length + 1)

/-- Read an unsigned number. -/
def scanNumber (text : List Char) : Except Error (Lexeme × Nat) :=
  match scanNumeral text with
  | .ok (value, length) => .ok (.number value, length)
  | .error error => .error error

/-- Read a number behind its minus sign. -/
def scanNegative (rest : List Char) : Except Error (Lexeme × Nat) :=
  match rest.head?.filter Text.isDigit with
  | none => .error (.malformed .noDigitsAfterMinus 1)
  | some _ =>
      match scanNumeral rest with
      | .ok (value, length) => .ok (.number (-value), length + 1)
      | .error (.malformed cause offset) => .error (.malformed cause (offset + 1))
      | .error (.longNumeral digits) => .error (.longNumeral digits)

/-- The character that a letter stands for behind a backslash; most stand for themselves. -/
def escaped (c : Char) : Char :=
  match c with
  | 'n' => '\n'
  | 'r' => '\r'
  | 't' => '\t'
  | '0' => '\x00'
  | c => c

/-- Read what stands behind an opening quote: the character, and the number of characters up
to where the closing quote must stand, with the opening one. -/
def scanQuoted : List Char → Except Error (Char × Nat)
  | [] | '\n' :: _ => .error (.malformed .openCharacter 1)
  | ['\\'] => .error (.malformed .openEscape 2)
  | '\\' :: 'x' :: rest =>
      let digits := (rest.take 2).takeWhile Text.isHexDigit
      if digits.isEmpty then .error (.malformed .noHexDigits 3)
      else .ok (Char.ofNat (Text.valueOf 16 digits), digits.length + 3)
  | '\\' :: c :: _ => .ok (escaped c, 3)
  | c :: _ => .ok (c, 2)

/-- Read a character literal behind its opening quote. -/
def scanCharacter (rest : List Char) : Except Error (Lexeme × Nat) :=
  match scanQuoted rest with
  | .error error => .error error
  | .ok (c, length) =>
      if (rest.drop (length - 1)).head? = some '\'' then .ok (.character c, length + 1)
      else .error (.malformed .noClosingQuote length)

/-- Read the lexeme at the start of a text, given its first character and the rest. -/
def scan
    (c : Char)
    (rest : List Char) : Except Error (Lexeme × Nat) :=
  if isBlank c then .ok (.blank, (rest.takeWhile isBlank).length + 1)
  else if c = ';' then .ok (.comment, (rest.takeWhile (· != '\n')).length + 1)
  else if c = '\n' then .ok (.lineBreak, 1)
  else if isNameStart c then scanWord (c :: rest)
  else if Text.isDigit c then scanNumber (c :: rest)
  else if c = '-' then scanNegative rest
  else if c = '.' then scanMarker rest
  else if c = '\'' then scanCharacter rest
  else if c = ',' then .ok (.comma, 1)
  else .error (.malformed (.unexpectedCharacter c) 1)

theorem isNameCharacter_of_isNameStart
    {c : Char}
    (starts : isNameStart c = true) :
    isNameCharacter c = true := by
  simp only [isNameStart, isNameCharacter, Char.isAlphanum, Bool.or_eq_true] at starts ⊢
  exact starts.elim (fun alpha => .inl (.inl alpha)) .inr

theorem scanWord_length_pos
    {c : Char}
    {rest : List Char}
    {lexeme : Lexeme}
    {length : Nat}
    (starts : isNameStart c = true)
    (read : scanWord (c :: rest) = .ok (lexeme, length)) :
    0 < length := by
  have letters : 0 < ((c :: rest).takeWhile isNameCharacter).length := by
    rw [List.takeWhile_cons_of_pos (isNameCharacter_of_isNameStart starts)]
    exact Nat.succ_pos _
  unfold scanWord at read
  dsimp only at read
  split at read
  · split at read
    · cases read
    · cases read
      exact Nat.succ_pos _
  · cases read
    exact letters

theorem scanNumeral_length_pos
    {text : List Char}
    {value length : Nat}
    (read : scanNumeral text = .ok (value, length)) :
    0 < length := by
  unfold scanNumeral at read
  dsimp only at read
  split at read
  · cases read
  · next digits =>
      split at read
      · cases read
      · split at read
        · cases read
        · cases read
          rw [List.isEmpty_iff] at digits
          exact Nat.add_pos_right _ (List.length_pos_iff.mpr digits)

theorem scanNumber_length_pos
    {text : List Char}
    {lexeme : Lexeme}
    {length : Nat}
    (read : scanNumber text = .ok (lexeme, length)) :
    0 < length := by
  unfold scanNumber at read
  split at read
  · next numeral =>
      cases read
      exact scanNumeral_length_pos numeral
  · cases read

theorem scanNegative_length_pos
    {rest : List Char}
    {lexeme : Lexeme}
    {length : Nat}
    (read : scanNegative rest = .ok (lexeme, length)) :
    0 < length := by
  unfold scanNegative at read
  split at read
  · cases read
  · split at read <;> cases read
    exact Nat.succ_pos _

theorem scanMarker_length_pos
    {rest : List Char}
    {lexeme : Lexeme}
    {length : Nat}
    (read : scanMarker rest = .ok (lexeme, length)) :
    0 < length := by
  unfold scanMarker at read
  split at read
  · cases read
  · cases read
    exact Nat.succ_pos _

theorem scanCharacter_length_pos
    {rest : List Char}
    {lexeme : Lexeme}
    {length : Nat}
    (read : scanCharacter rest = .ok (lexeme, length)) :
    0 < length := by
  unfold scanCharacter at read
  split at read
  · cases read
  · split at read <;> cases read
    exact Nat.succ_pos _

/-- A lexeme takes at least one character. -/
theorem scan_length_pos
    {c : Char}
    {rest : List Char}
    {lexeme : Lexeme}
    {length : Nat}
    (read : scan c rest = .ok (lexeme, length)) :
    0 < length := by
  unfold scan at read
  repeat' split at read
  · cases read
    exact Nat.succ_pos _
  · cases read
    exact Nat.succ_pos _
  · cases read
    exact Nat.succ_pos _
  · next starts => exact scanWord_length_pos starts read
  · exact scanNumber_length_pos read
  · exact scanNegative_length_pos read
  · exact scanMarker_length_pos read
  · exact scanCharacter_length_pos read
  · cases read
    exact Nat.succ_pos _
  · cases read

end Lexeme
end WordAsm
