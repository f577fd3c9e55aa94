import Mathlib.Data.List.TakeWhile
import WordAsm.Lexeme.Scan

/-!
# How lexemes are written

Every lexeme has its ways of being written, and some of them must not run into what follows. A
text starts with a lexeme exactly when it starts with a way to write it and goes on with a
character at which the lexeme stops.
-/

namespace WordAsm

/-! ## Letters -/

namespace Text

theorem isUpper_iff (c : Char) :
    c.isUpper = true ↔ 'A'.toNat ≤ c.toNat ∧ c.toNat ≤ 'Z'.toNat := by
  change decide ('A'.val ≤ c.val ∧ c.val ≤ 'Z'.val) = true ↔ _
  rw [decide_eq_true_iff, UInt32.le_iff_toNat_le, UInt32.le_iff_toNat_le]
  rfl

theorem isLower_iff (c : Char) :
    c.isLower = true ↔ 'a'.toNat ≤ c.toNat ∧ c.toNat ≤ 'z'.toNat := by
  change (decide ('a'.val ≤ c.val) && decide (c.val ≤ 'z'.val)) = true ↔ _
  rw [Bool.and_eq_true, decide_eq_true_iff, decide_eq_true_iff, UInt32.le_iff_toNat_le,
    UInt32.le_iff_toNat_le]
  rfl

theorem isAlpha_iff (c : Char) :
    c.isAlpha = true ↔ c.isUpper = true ∨ c.isLower = true :=
  Bool.or_eq_true_iff

end Text

namespace Lexeme

/-! ## Names -/

theorem isNameCharacter_iff (c : Char) :
    isNameCharacter c = true ↔ c.isAlpha = true ∨ c.isDigit = true ∨ c = '_' := by
  rw [isNameCharacter, Char.isAlphanum, Bool.or_eq_true, Bool.or_eq_true, beq_iff_eq, or_assoc]

/-- Whether a text is a name: a letter or underscore, and any number of letters, digits and
underscores. -/
def isName (name : String) : Bool :=
  match name.toList with
  | [] => false
  | c :: letters => isNameStart c && letters.all isNameCharacter

theorem exists_of_isName
    {name : String}
    (named : isName name = true) :
    ∃ c letters, name = String.ofList (c :: letters) ∧ isNameStart c = true ∧
      ∀ letter ∈ c :: letters, isNameCharacter letter = true := by
  unfold isName at named
  split at named
  · cases named
  · next c letters text =>
      obtain ⟨starts, characters⟩ := Bool.and_eq_true_iff.mp named
      refine ⟨c, letters, by rw [← text, String.ofList_toList], starts, ?_⟩
      rw [List.forall_mem_cons]
      exact ⟨isNameCharacter_of_isNameStart starts, List.all_eq_true.mp characters⟩

theorem isNameCharacter_of_isHexDigit
    {c : Char}
    (digit : Text.isHexDigit c = true) :
    isNameCharacter c = true := by
  simp only [Text.isHexDigit, Bool.or_eq_true, Bool.and_eq_true, decide_eq_true_eq,
    Char.le_def, UInt32.le_iff_toNat_le] at digit
  rw [isNameCharacter_iff, Text.isAlpha_iff, Text.isUpper_iff, Text.isLower_iff]
  obtain (decimal | lower) | upper := digit
  · exact .inr (.inl decimal)
  · have last : 'f'.toNat ≤ 'z'.toNat := by decide
    exact .inl (.inr ⟨lower.1, lower.2.trans last⟩)
  · have last : 'F'.toNat ≤ 'Z'.toNat := by decide
    exact .inl (.inl ⟨upper.1, upper.2.trans last⟩)

/-- Digits of every base are name characters, so a name runs into a numeral unless something
else stands between them. -/
theorem Radix.isNameCharacter_of_hasDigit
    {radix : Radix}
    {c : Char}
    (digit : radix.hasDigit c = true) :
    isNameCharacter c = true := by
  apply isNameCharacter_of_isHexDigit
  cases radix with
  | decimal => simp [Text.isHexDigit, show c.isDigit = true from digit]
  | hexadecimal => exact digit
  | binary =>
      simp only [hasDigit, Bool.or_eq_true, beq_iff_eq] at digit
      obtain rfl | rfl := digit <;> rfl
  | octal =>
      simp only [hasDigit, Bool.and_eq_true, decide_eq_true_eq, Char.le_def,
        UInt32.le_iff_toNat_le] at digit
      have last : '7'.val.toNat ≤ '9'.val.toNat := by decide
      have decimal : c.isDigit = true := by
        rw [Char.isDigit_iff_toNat]
        exact ⟨digit.1, digit.2.trans last⟩
      simp [Text.isHexDigit, decimal]

theorem Radix.isAlpha_of_ofLetter?
    {letter : Char}
    {radix : Radix}
    (found : ofLetter? letter = some radix) :
    letter.isAlpha = true := by
  unfold ofLetter? at found
  simp only [Bool.or_eq_true, beq_iff_eq] at found
  split at found
  · next letters => obtain rfl | rfl := letters <;> rfl
  · split at found
    · next letters => obtain rfl | rfl := letters <;> rfl
    · split at found
      · next letters => obtain rfl | rfl := letters <;> rfl
      · cases found

/-! ## The ways to write a lexeme -/

/-- What announces a base: nothing for decimal numerals, else a zero and a letter. -/
inductive Radix.Announced : Radix → List Char → Prop
  | bare :
      Announced .decimal []
  | letter {radix : Radix} {letter : Char} :
      ofLetter? letter = some radix →
      Announced radix ['0', letter]

/-- A numeral and its value. Only decimal numerals have a limit. -/
inductive Numeral : List Char → Nat → Prop
  | intro {radix : Radix} {announcement digits : List Char} :
      radix.Announced announcement →
      digits ≠ [] →
      (∀ c ∈ digits, radix.hasDigit c = true) →
      (radix = .decimal → digits.length ≤ Text.decimalLimit) →
      Numeral (announcement ++ digits) (Text.valueOf radix.base digits)

/-- What may stand between quotes, and the character it stands for. -/
inductive Quoted : List Char → Char → Prop
  | plain {c : Char} :
      c ≠ '\n' →
      c ≠ '\\' →
      Quoted [c] c
  | escape {c : Char} :
      c ≠ 'x' →
      Quoted ['\\', c] (escaped c)
  | hexadecimal {digits : List Char} :
      digits ≠ [] →
      digits.length ≤ 2 →
      (∀ c ∈ digits, Text.isHexDigit c = true) →
      Quoted ('\\' :: 'x' :: digits) (Char.ofNat (Text.valueOf 16 digits))

/-- The ways to write a lexeme. -/
inductive Spelled : List Char → Lexeme → Prop
  | blank {front : List Char} :
      front ≠ [] →
      (∀ c ∈ front, isBlank c = true) →
      Spelled front .blank
  | comment {body : List Char} :
      (∀ c ∈ body, c ≠ '\n') →
      Spelled (';' :: body) .comment
  | lineBreak :
      Spelled ['\n'] .lineBreak
  | comma :
      Spelled [','] .comma
  | marker {name : String} :
      isName name = true →
      Spelled ('.' :: name.toList) (.marker name)
  | label {name : String} :
      isName name = true →
      Machine.isRegisterName name = false →
      Spelled (name.toList ++ [':']) (.label name)
  | word {name : String} :
      isName name = true →
      Spelled name.toList (.word name)
  | number {front : List Char} {value : Nat} :
      Numeral front value →
      Spelled front (.number value)
  | negative {front : List Char} {value : Nat} :
      Numeral front value →
      Spelled ('-' :: front) (.number (-value))
  | character {front : List Char} {c : Char} :
      Quoted front c →
      Spelled ('\'' :: front ++ ['\'']) (.character c)

/-- Whether a lexeme stops before a character, or before the end of the text. -/
def StopsAt
    (next : Option Char) : Lexeme → Prop
  | .blank => ∀ c ∈ next, isBlank c = false
  | .comment => ∀ c ∈ next, c = '\n'
  | .word _ => ∀ c ∈ next, isNameCharacter c = false ∧ c ≠ ':'
  | .marker _ | .number _ => ∀ c ∈ next, isNameCharacter c = false
  | .lineBreak | .comma | .label _ | .character _ => True

/-- A text starts with a lexeme of some length. -/
def Leads
    (lexeme : Lexeme)
    (length : Nat)
    (text : List Char) : Prop :=
  ∃ front rest, text = front ++ rest ∧ length = front.length ∧ Spelled front lexeme ∧
    lexeme.StopsAt rest.head?

/-! ## Runs of characters -/

/-- A run of characters of a kind stops where another character follows. -/
theorem takeWhile_append_eq
    {kind : Char → Bool}
    {front rest : List Char}
    (all : ∀ c ∈ front, kind c = true)
    (stops : ∀ c ∈ rest.head?, kind c = false) :
    (front ++ rest).takeWhile kind = front := by
  rw [List.takeWhile_append_of_pos all]
  cases rest with
  | nil => rw [List.takeWhile_nil, List.append_nil]
  | cons c rest =>
      have stopped : ¬ kind c = true := by simp [stops c rfl]
      rw [List.takeWhile_cons_of_neg stopped, List.append_nil]

/-- A text is cut behind its longest run of characters of a kind. -/
theorem exists_run
    (kind : Char → Bool)
    (text : List Char) :
    ∃ front rest, text = front ++ rest ∧ (∀ c ∈ front, kind c = true) ∧
      ∀ c ∈ rest.head?, kind c = false := by
  refine ⟨text.takeWhile kind, text.dropWhile kind, List.takeWhile_append_dropWhile.symm,
    fun c listed => List.mem_takeWhile_imp listed, ?_⟩
  intro c first
  have stopped := List.head?_dropWhile_not kind text
  rw [Option.mem_def.mp first] at stopped
  exact stopped

/-- A character that starts a name does so with all name characters behind it. -/
theorem exists_name
    {c : Char}
    (starts : isNameStart c = true)
    (text : List Char) :
    ∃ letters rest, text = letters ++ rest ∧ isName (String.ofList (c :: letters)) = true ∧
      (∀ letter ∈ c :: letters, isNameCharacter letter = true) ∧
      ∀ c ∈ rest.head?, isNameCharacter c = false := by
  obtain ⟨letters, rest, text_eq, characters, stops⟩ := exists_run isNameCharacter text
  refine ⟨letters, rest, text_eq, ?_, ?_, stops⟩
  · rw [isName, String.toList_ofList]
    exact Bool.and_eq_true_iff.mpr ⟨starts, List.all_eq_true.mpr characters⟩
  · rw [List.forall_mem_cons]
    exact ⟨isNameCharacter_of_isNameStart starts, characters⟩

/-! ## Words, labels and markers -/

section

variable {c : Char} {letters rest : List Char}

/-- A character that starts a name is read with the name. -/
theorem scan_of_isNameStart
    (starts : isNameStart c = true) :
    scan c rest = scanWord (c :: rest) := by
  have blank : ¬ isBlank c = true := by
    simp only [isBlank, Bool.or_eq_true, beq_iff_eq]
    rintro ((rfl | rfl) | rfl) <;> cases starts
  have comment : c ≠ ';' := by rintro rfl; cases starts
  have lineBreak : c ≠ '\n' := by rintro rfl; cases starts
  rw [scan, if_neg blank, if_neg comment, if_neg lineBreak, if_pos starts]

/-- What a name is read as depends on the colon behind it. -/
theorem scanWord_append
    (characters : ∀ letter ∈ letters, isNameCharacter letter = true)
    (stops : ∀ c ∈ rest.head?, isNameCharacter c = false) :
    scanWord (letters ++ rest) =
      if rest.head? = some ':' then
        if Machine.isRegisterName (String.ofList letters) then
          .error (.malformed (.registerLabel (String.ofList letters)) 0)
        else .ok (.label (String.ofList letters), letters.length + 1)
      else .ok (.word (String.ofList letters), letters.length) := by
  rw [scanWord, takeWhile_append_eq characters stops, List.drop_left]

theorem scanMarker_append
    (starts : isNameStart c = true)
    (characters : ∀ letter ∈ c :: letters, isNameCharacter letter = true)
    (stops : ∀ c ∈ rest.head?, isNameCharacter c = false) :
    scanMarker (c :: letters ++ rest) =
      .ok (.marker (String.ofList (c :: letters)), letters.length + 2) := by
  have named : (c :: letters ++ rest).head?.filter isNameStart = some c := by
    rw [List.cons_append, List.head?_cons, Option.filter_some, if_pos starts]
  rw [scanMarker, named]
  dsimp only
  rw [takeWhile_append_eq characters stops, List.length_cons]

/-- A word is a name, and so is what a colon makes a label. -/
theorem leads_of_scanWord
    {text : List Char}
    {lexeme : Lexeme}
    {length : Nat}
    (starts : isNameStart c = true)
    (read : scanWord (c :: text) = .ok (lexeme, length)) :
    lexeme.Leads length (c :: text) := by
  obtain ⟨letters, rest, rfl, named, characters, stops⟩ := exists_name starts text
  rw [← List.cons_append, scanWord_append characters stops] at read
  split at read
  · next colon =>
      split at read
      · cases read
      · next free =>
          cases read
          obtain ⟨behind, rfl⟩ := List.head?_eq_some_iff.mp colon
          refine ⟨c :: letters ++ [':'], behind, by simp, by simp, ?_, trivial⟩
          have spelled := Spelled.label named (Bool.eq_false_iff.mpr free)
          rwa [String.toList_ofList] at spelled
  · next unmarked =>
      cases read
      refine ⟨c :: letters, rest, rfl, rfl, ?_, ?_⟩
      · have spelled := Spelled.word named
        rwa [String.toList_ofList] at spelled
      · intro next first
        refine ⟨stops next first, ?_⟩
        rintro rfl
        exact unmarked first

theorem leads_of_scanMarker
    {text : List Char}
    {lexeme : Lexeme}
    {length : Nat}
    (read : scanMarker text = .ok (lexeme, length)) :
    lexeme.Leads length ('.' :: text) := by
  cases text with
  | nil => cases read
  | cons c text =>
      by_cases starts : isNameStart c = true
      · obtain ⟨letters, rest, rfl, named, characters, stops⟩ := exists_name starts text
        rw [← List.cons_append, scanMarker_append starts characters stops] at read
        cases read
        refine ⟨'.' :: c :: letters, rest, rfl, rfl, ?_, stops⟩
        have spelled := Spelled.marker named
        rwa [String.toList_ofList] at spelled
      · rw [scanMarker, List.head?_cons, Option.filter_some_neg (by simpa using starts)] at read
        cases read

end

/-! ## Numerals -/

theorem isAlpha_eq_false_of_isDigit
    {c : Char}
    (digit : c.isDigit = true) :
    c.isAlpha = false := by
  rw [Char.isDigit_iff_toNat] at digit
  rw [Bool.eq_false_iff, ne_eq, Text.isAlpha_iff, Text.isUpper_iff, Text.isLower_iff]
  have upper : '9'.toNat < 'A'.toNat := by decide
  have lower : '9'.toNat < 'a'.toNat := by decide
  omega

/-- Nothing announces decimal numerals. -/
theorem Radix.Announced.eq_nil
    {announcement : List Char}
    (announced : Announced .decimal announcement) :
    announcement = [] := by
  cases announced with
  | bare => rfl
  | letter found =>
      unfold ofLetter? at found
      split at found
      · cases found
      · split at found
        · cases found
        · split at found <;> cases found

/-- Every text starts with the announcement of the base that is read. -/
theorem Radix.exists_announcement (text : List Char) :
    ∃ announcement rest, text = announcement ++ rest ∧
      (ofText text).1.Announced announcement ∧ (ofText text).2 = announcement.length := by
  unfold ofText
  split
  · next letter rest =>
      split
      · next radix found => exact ⟨['0', letter], rest, rfl, .letter found, rfl⟩
      · exact ⟨[], _, rfl, .bare, rfl⟩
  · exact ⟨[], _, rfl, .bare, rfl⟩

/-- The base of a numeral is read off its announcement. -/
theorem Radix.ofText_append
    {radix : Radix}
    {announcement digits rest : List Char}
    (announced : radix.Announced announcement)
    (nonempty : digits ≠ [])
    (all : ∀ c ∈ digits, radix.hasDigit c = true)
    (stops : ∀ c ∈ rest.head?, isNameCharacter c = false) :
    ofText (announcement ++ digits ++ rest) = (radix, announcement.length) := by
  cases announced with
  | letter found => simp [ofText, found]
  | bare =>
      -- The second character is a digit or no name character, so it announces nothing.
      obtain ⟨first, digits, rfl⟩ := List.exists_cons_of_ne_nil nonempty
      have silent : ∀ c ∈ (digits ++ rest).head?, ofLetter? c = none := by
        intro c second
        have plain : c.isAlpha = false := by
          cases digits with
          | nil =>
              have ended := stops c second
              simp only [isNameCharacter, Char.isAlphanum, Bool.or_eq_false_iff] at ended
              exact ended.1.1
          | cons digit digits =>
              cases second
              exact isAlpha_eq_false_of_isDigit (all c (by simp))
        rw [Option.eq_none_iff_forall_ne_some]
        intro radix found
        rw [isAlpha_of_ofLetter? found] at plain
        cases plain
      rw [List.nil_append, List.cons_append]
      unfold ofText
      split
      · next letter more text_eq =>
          rw [silent letter (by rw [(List.cons.inj text_eq).2]; rfl)]
          rfl
      · rfl

/-- A numeral that nothing runs into is read, unless it is over the limit. -/
theorem scanNumeral_append
    {radix : Radix}
    {announcement digits rest : List Char}
    (announced : radix.Announced announcement)
    (nonempty : digits ≠ [])
    (all : ∀ c ∈ digits, radix.hasDigit c = true)
    (stops : ∀ c ∈ rest.head?, isNameCharacter c = false) :
    scanNumeral (announcement ++ digits ++ rest) =
      if radix = .decimal ∧ Text.decimalLimit < digits.length then
        .error (.longNumeral digits.length)
      else .ok (Text.valueOf radix.base digits, (announcement ++ digits).length) := by
  have digits_eq : (digits ++ rest).takeWhile radix.hasDigit = digits := by
    apply takeWhile_append_eq all
    intro c first
    rw [Bool.eq_false_iff]
    intro digit
    exact Bool.false_ne_true ((stops c first).symm.trans (radix.isNameCharacter_of_hasDigit digit))
  have ended : rest.head?.filter isNameCharacter = none := by
    rw [Option.filter_eq_none_iff]
    intro c first
    simp [stops c first]
  have filled : ¬ digits.isEmpty = true := by
    rwa [List.isEmpty_iff]
  rw [scanNumeral, Radix.ofText_append announced nonempty all stops]
  dsimp only
  rw [List.append_assoc, List.drop_left, digits_eq, if_neg filled, ← List.append_assoc,
    ← List.length_append, List.drop_left, ended]

/-- A text is divided into the announcement of a base, digits of the base and the rest, and these
decide what is read. -/
theorem exists_scanNumeral_eq (text : List Char) :
    ∃ radix announcement digits rest, text = announcement ++ digits ++ rest ∧
      Radix.Announced radix announcement ∧ (∀ c ∈ digits, radix.hasDigit c = true) ∧
      scanNumeral text =
        if digits.isEmpty then .error (.malformed .noDigits (announcement ++ digits).length)
        else
          match rest.head?.filter isNameCharacter with
          | some c => .error (.malformed (.invalidDigit c) (announcement ++ digits).length)
          | none =>
              if radix = .decimal ∧ Text.decimalLimit < digits.length then
                .error (.longNumeral digits.length)
              else .ok (Text.valueOf radix.base digits, (announcement ++ digits).length) := by
  obtain ⟨announcement, behind, text_eq, announced, length_eq⟩ := Radix.exists_announcement text
  rw [scanNumeral]
  generalize Radix.ofText text = found at announced length_eq
  obtain ⟨radix, count⟩ := found
  dsimp only at announced length_eq ⊢
  subst length_eq text_eq
  obtain ⟨digits, rest, rfl, all, stops⟩ := exists_run radix.hasDigit behind
  refine ⟨radix, announcement, digits, rest, (List.append_assoc ..).symm, announced, all, ?_⟩
  rewrite [List.drop_left, takeWhile_append_eq all stops, ← List.append_assoc,
    ← List.length_append, List.drop_left]
  rfl

/-- What is read as a number is a numeral that nothing runs into. -/
theorem exists_numeral_of_scanNumeral
    {text : List Char}
    {value length : Nat}
    (read : scanNumeral text = .ok (value, length)) :
    ∃ front rest, text = front ++ rest ∧ length = front.length ∧ Numeral front value ∧
      ∀ c ∈ rest.head?, isNameCharacter c = false := by
  obtain ⟨radix, announcement, digits, rest, rfl, announced, all, outcome⟩ :=
    exists_scanNumeral_eq text
  rw [outcome] at read
  split at read
  · cases read
  · next filled =>
      split at read
      · cases read
      · next ended =>
          split at read
          · cases read
          · next within =>
              cases read
              refine ⟨announcement ++ digits, rest, rfl, rfl, ?_, ?_⟩
              · refine .intro announced ?_ all ?_
                · rwa [List.isEmpty_iff] at filled
                · intro decimal
                  exact Nat.le_of_not_lt fun long => within ⟨decimal, long⟩
              · intro c first
                simpa using (Option.filter_eq_none_iff.mp ended) c first

theorem Numeral.scanNumeral_eq
    {front rest : List Char}
    {value : Nat}
    (numeral : Numeral front value)
    (stops : ∀ c ∈ rest.head?, isNameCharacter c = false) :
    scanNumeral (front ++ rest) = .ok (value, front.length) := by
  cases numeral with
  | intro announced nonempty all limited =>
      rw [scanNumeral_append announced nonempty all stops, if_neg]
      rintro ⟨decimal, long⟩
      exact Nat.not_le_of_lt long (limited decimal)

/-- Every numeral starts with a decimal digit. -/
theorem Numeral.exists_isDigit
    {front : List Char}
    {value : Nat}
    (numeral : Numeral front value) :
    ∃ c tail, front = c :: tail ∧ c.isDigit = true := by
  cases numeral with
  | @intro _ _ digits announced nonempty all limited =>
      cases announced with
      | letter => exact ⟨_, _, rfl, rfl⟩
      | bare =>
          obtain ⟨c, tail, rfl⟩ := List.exists_cons_of_ne_nil nonempty
          exact ⟨c, tail, rfl, all c List.mem_cons_self⟩

theorem isDigit_of_isDigit
    {c : Char}
    (digit : c.isDigit = true) :
    Text.isDigit c = true := by
  have ascii : c.toNat < 0x80 := by
    simp only [Char.isDigit, Bool.and_eq_true, decide_eq_true_eq, ge_iff_le,
      UInt32.le_iff_toNat_le] at digit
    have last : '9'.val.toNat < 0x80 := by decide
    exact Nat.lt_of_le_of_lt digit.2 last
  rw [Text.isDigit, if_pos ascii, digit]

/-- A decimal digit is read with its numeral. -/
theorem scan_of_isDigit
    {c : Char}
    {rest : List Char}
    (digit : c.isDigit = true) :
    scan c rest = scanNumber (c :: rest) := by
  have blank : ¬ isBlank c = true := by
    simp only [isBlank, Bool.or_eq_true, beq_iff_eq]
    rintro ((rfl | rfl) | rfl) <;> cases digit
  have comment : c ≠ ';' := by rintro rfl; cases digit
  have lineBreak : c ≠ '\n' := by rintro rfl; cases digit
  have nameless : ¬ isNameStart c = true := by
    simp only [isNameStart, isAlpha_eq_false_of_isDigit digit, Bool.false_or, beq_iff_eq]
    rintro rfl
    cases digit
  rw [scan, if_neg blank, if_neg comment, if_neg lineBreak, if_neg nameless,
    if_pos (isDigit_of_isDigit digit)]

theorem leads_of_scanNumber
    {text : List Char}
    {lexeme : Lexeme}
    {length : Nat}
    (read : scanNumber text = .ok (lexeme, length)) :
    lexeme.Leads length text := by
  unfold scanNumber at read
  split at read
  · next value length numeral =>
      cases read
      obtain ⟨front, rest, text_eq, length_eq, numeral, stops⟩ :=
        exists_numeral_of_scanNumeral numeral
      exact ⟨front, rest, text_eq, length_eq, .number numeral, stops⟩
  · cases read

theorem leads_of_scanNegative
    {text : List Char}
    {lexeme : Lexeme}
    {length : Nat}
    (read : scanNegative text = .ok (lexeme, length)) :
    lexeme.Leads length ('-' :: text) := by
  unfold scanNegative at read
  split at read
  · cases read
  · split at read
    · next value length numeral =>
        cases read
        obtain ⟨front, rest, rfl, rfl, numeral, stops⟩ := exists_numeral_of_scanNumeral numeral
        exact ⟨'-' :: front, rest, rfl, rfl, .negative numeral, stops⟩
    · cases read
    · cases read

/-! ## Characters -/

/-- What stands between quotes is read with the closing quote. -/
theorem Quoted.scanCharacter_eq
    {front : List Char}
    {c : Char}
    (quoted : Quoted front c)
    (rest : List Char) :
    scanCharacter (front ++ '\'' :: rest) = .ok (.character c, front.length + 2) := by
  have read : scanQuoted (front ++ '\'' :: rest) = .ok (c, front.length + 1) := by
    cases quoted with
    | plain lineFeed backslash => simp [scanQuoted, backslash]
    | escape hexadecimal => simp [scanQuoted]
    | @hexadecimal digits nonempty short all =>
        have digits_eq : ((digits ++ '\'' :: rest).take 2).takeWhile Text.isHexDigit = digits := by
          rw [List.take_append, List.take_of_length_le short]
          apply takeWhile_append_eq all
          generalize 2 - digits.length = count
          intro c first
          cases count with
          | zero => cases first
          | succ => cases first; rfl
        have filled : ¬ digits.isEmpty = true := by rwa [List.isEmpty_iff]
        simp [scanQuoted, digits_eq, filled]
  rw [scanCharacter, read]
  simp

theorem exists_quoted_of_scanQuoted
    {text : List Char}
    {c : Char}
    {length : Nat}
    (read : scanQuoted text = .ok (c, length)) :
    ∃ front rest, text = front ++ rest ∧ length = front.length + 1 ∧ Quoted front c := by
  unfold scanQuoted at read
  split at read
  · cases read
  · cases read
  · cases read
  · next rest =>
      dsimp only at read
      split at read
      · cases read
      · next filled =>
          cases read
          have leading : (rest.take 2).takeWhile Text.isHexDigit <+: rest :=
            (List.takeWhile_prefix _).trans (List.take_prefix 2 rest)
          obtain ⟨behind, rest_eq⟩ := leading
          refine ⟨'\\' :: 'x' :: (rest.take 2).takeWhile Text.isHexDigit, behind, ?_, rfl, ?_⟩
          · rw [List.cons_append, List.cons_append, rest_eq]
          · refine .hexadecimal ?_ ?_ fun c listed => List.mem_takeWhile_imp listed
            · rwa [List.isEmpty_iff] at filled
            · exact (List.takeWhile_prefix _).length_le.trans (List.length_take_le 2 rest)
  · next c rest other =>
      cases read
      exact ⟨['\\', c], rest, rfl, rfl, .escape other⟩
  · next c rest lineFeed single hexadecimal escape =>
      cases read
      have backslash : c ≠ '\\' := by
        rintro rfl
        cases rest with
        | nil => exact single rfl rfl
        | cons first rest => exact escape first rest rfl rfl
      exact ⟨[c], rest, rfl, rfl, .plain lineFeed backslash⟩

theorem leads_of_scanCharacter
    {text : List Char}
    {lexeme : Lexeme}
    {length : Nat}
    (read : scanCharacter text = .ok (lexeme, length)) :
    lexeme.Leads length ('\'' :: text) := by
  unfold scanCharacter at read
  split at read
  · cases read
  · next c length found =>
      obtain ⟨front, rest, rfl, rfl, quoted⟩ := exists_quoted_of_scanQuoted found
      rw [Nat.add_sub_cancel, List.drop_left] at read
      split at read
      · next closed =>
          cases read
          obtain ⟨behind, rfl⟩ := List.head?_eq_some_iff.mp closed
          refine ⟨'\'' :: front ++ ['\''], behind, ?_, ?_, .character quoted, trivial⟩
          · rw [List.append_assoc, List.cons_append, List.singleton_append]
          · rw [List.length_append, List.length_cons, List.length_singleton]
      · cases read

/-! ## All lexemes -/

/-- What is read at the start of a text is a way to write the lexeme. -/
theorem leads_of_scan
    {c : Char}
    {text : List Char}
    {lexeme : Lexeme}
    {length : Nat}
    (read : scan c text = .ok (lexeme, length)) :
    lexeme.Leads length (c :: text) := by
  unfold scan at read
  repeat' split at read
  · next blank =>
      cases read
      obtain ⟨front, rest, rfl, all, stops⟩ := exists_run isBlank text
      refine ⟨c :: front, rest, rfl, ?_, .blank (List.cons_ne_nil c front) ?_, stops⟩
      · rw [takeWhile_append_eq all stops, List.length_cons]
      · rw [List.forall_mem_cons]
        exact ⟨blank, all⟩
  · next comment =>
      cases read
      obtain ⟨body, rest, rfl, all, stops⟩ := exists_run (· != '\n') text
      subst comment
      refine ⟨';' :: body, rest, rfl, ?_, .comment ?_, ?_⟩
      · rw [takeWhile_append_eq all stops, List.length_cons]
      · intro c listed
        simpa using all c listed
      · intro c first
        simpa using stops c first
  · next lineBreak =>
      cases read
      subst lineBreak
      exact ⟨['\n'], text, rfl, rfl, .lineBreak, trivial⟩
  · next starts => exact leads_of_scanWord starts read
  · exact leads_of_scanNumber read
  · next minus =>
      subst minus
      exact leads_of_scanNegative read
  · next dot =>
      subst dot
      exact leads_of_scanMarker read
  · next quote =>
      subst quote
      exact leads_of_scanCharacter read
  · next comma =>
      cases read
      subst comma
      exact ⟨[','], text, rfl, rfl, .comma, trivial⟩
  · cases read

/-- A way to write a lexeme is read as the lexeme where the lexeme stops behind it. -/
theorem Spelled.exists_scan
    {front rest : List Char}
    {lexeme : Lexeme}
    (spelled : Spelled front lexeme)
    (stops : lexeme.StopsAt rest.head?) :
    ∃ c tail, front = c :: tail ∧ scan c (tail ++ rest) = .ok (lexeme, tail.length + 1) := by
  cases spelled with
  | blank nonempty all =>
      obtain ⟨c, tail, rfl⟩ := List.exists_cons_of_ne_nil nonempty
      rw [List.forall_mem_cons] at all
      refine ⟨c, tail, rfl, ?_⟩
      rw [scan, if_pos all.1, takeWhile_append_eq all.2 stops]
  | @comment body all =>
      refine ⟨';', body, rfl, ?_⟩
      have body_eq : (body ++ rest).takeWhile (· != '\n') = body := by
        apply takeWhile_append_eq
        · simpa using all
        · intro c first
          simpa using stops c first
      have comment : scan ';' (body ++ rest) =
          .ok (.comment, ((body ++ rest).takeWhile (· != '\n')).length + 1) := rfl
      rw [comment, body_eq]
  | lineBreak => exact ⟨'\n', [], rfl, rfl⟩
  | comma => exact ⟨',', [], rfl, rfl⟩
  | marker named =>
      obtain ⟨c, letters, rfl, starts, characters⟩ := exists_of_isName named
      refine ⟨'.', c :: letters, by rw [String.toList_ofList], ?_⟩
      exact scanMarker_append starts characters stops
  | label named free =>
      obtain ⟨c, letters, rfl, starts, characters⟩ := exists_of_isName named
      refine ⟨c, letters ++ [':'], by rw [String.toList_ofList, List.cons_append], ?_⟩
      have colon : ∀ c ∈ (':' :: rest).head?, isNameCharacter c = false := by
        rintro c ⟨⟩
        rfl
      rw [List.append_assoc, scan_of_isNameStart starts, ← List.cons_append, List.singleton_append,
        scanWord_append characters colon, List.head?_cons, if_pos rfl, free, List.length_append]
      rfl
  | word named =>
      obtain ⟨c, letters, rfl, starts, characters⟩ := exists_of_isName named
      refine ⟨c, letters, String.toList_ofList, ?_⟩
      have unmarked : rest.head? ≠ some ':' := fun colon => (stops ':' colon).2 rfl
      rw [scan_of_isNameStart starts, ← List.cons_append,
        scanWord_append characters fun c first => (stops c first).1, if_neg unmarked,
        List.length_cons]
  | number numeral =>
      obtain ⟨c, tail, rfl, digit⟩ := numeral.exists_isDigit
      refine ⟨c, tail, rfl, ?_⟩
      rw [scan_of_isDigit digit, scanNumber, ← List.cons_append, numeral.scanNumeral_eq stops]
      rfl
  | @negative front value numeral =>
      obtain ⟨c, tail, rfl, digit⟩ := numeral.exists_isDigit
      refine ⟨'-', c :: tail, rfl, ?_⟩
      have signed : scan '-' (c :: tail ++ rest) = scanNegative (c :: tail ++ rest) := rfl
      have digits : (c :: tail ++ rest).head?.filter Text.isDigit = some c := by
        rw [List.cons_append, List.head?_cons, Option.filter_some_pos (isDigit_of_isDigit digit)]
      rw [signed, scanNegative, digits]
      dsimp only
      rw [numeral.scanNumeral_eq stops]
  | @character front c quoted =>
      refine ⟨'\'', front ++ ['\''], rfl, ?_⟩
      have literal : scan '\'' (front ++ ['\''] ++ rest) =
          scanCharacter (front ++ ['\''] ++ rest) := rfl
      rw [literal, List.append_assoc, List.singleton_append, quoted.scanCharacter_eq,
        List.length_append, List.length_singleton]

/-- A text starts with a lexeme exactly when it starts with a way to write the lexeme, and the
lexeme stops behind it. -/
theorem scan_eq_ok_iff
    (c : Char)
    (text : List Char)
    (lexeme : Lexeme)
    (length : Nat) :
    scan c text = .ok (lexeme, length) ↔ lexeme.Leads length (c :: text) := by
  refine ⟨leads_of_scan, ?_⟩
  rintro ⟨front, rest, text_eq, rfl, spelled, stops⟩
  obtain ⟨first, tail, rfl, read⟩ := spelled.exists_scan stops
  obtain ⟨rfl, rfl⟩ := List.cons.inj text_eq
  exact read

end Lexeme
end WordAsm
