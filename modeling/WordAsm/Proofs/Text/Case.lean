import WordAsm.Instruction
import WordAsm.Proofs.Lexeme.Grammar

/-!
# Letter case

Names and registers are ASCII, so what the case of a letter does to them can be checked letter by
letter. All other characters have no case. The mnemonics are names in capitals.
-/

namespace WordAsm
namespace Text

/-- What holds of every ASCII character can be checked one by one. -/
theorem of_ascii
    (property : Char → Prop)
    (checked : ∀ n : Fin 128, property (Char.ofNat n))
    {c : Char}
    (ascii : c.toNat < 128) :
    property c := by
  have here := checked ⟨c.toNat, ascii⟩
  rwa [Char.ofNat_toNat] at here

theorem ascii_of_isNameCharacter
    {c : Char}
    (character : Lexeme.isNameCharacter c = true) :
    c.toNat < 128 := by
  rw [Lexeme.isNameCharacter_iff, isAlpha_iff, isUpper_iff, isLower_iff,
    Char.isDigit_iff_toNat] at character
  have upper : 'Z'.toNat < 128 := by decide
  have lower : 'z'.toNat < 128 := by decide
  have digit : '9'.toNat < 128 := by decide
  obtain (range | range) | range | rfl := character
  · omega
  · omega
  · omega
  · decide

theorem ascii_of_isLower
    {c : Char}
    (lower : c.isLower = true) :
    c.toNat < 128 := by
  apply ascii_of_isNameCharacter
  rw [Lexeme.isNameCharacter_iff, isAlpha_iff]
  exact .inl (.inr lower)

theorem toUpper_eq_self
    {c : Char}
    (other : c.isLower = false) :
    c.toUpper = c := by
  unfold Char.toUpper
  rw [dif_neg]
  intro range
  have lower : c.isLower = true := by
    rw [isLower_iff]
    exact ⟨UInt32.le_iff_toNat_le.mp range.1, UInt32.le_iff_toNat_le.mp range.2⟩
  rw [lower] at other
  cases other

/-- A capital is no small letter. -/
theorem isLower_toUpper (c : Char) :
    c.toUpper.isLower = false := by
  cases lower : c.isLower with
  | false => rw [toUpper_eq_self lower, lower]
  | true =>
      exact of_ascii (fun c => c.toUpper.isLower = false) (by decide) (ascii_of_isLower lower)

/-- The capital of a small letter is a capital. -/
theorem isUpper_toUpper
    {c : Char}
    (lower : c.isLower = true) :
    c.toUpper.isUpper = true :=
  of_ascii (fun c => c.isLower = true → c.toUpper.isUpper = true) (by decide)
    (ascii_of_isLower lower) lower

/-- Only letters have the capital of another character. -/
theorem eq_or_isAlpha_of_toUpper_eq
    {c d : Char}
    (same : c.toUpper = d.toUpper) :
    c = d ∨ c.isAlpha = true ∧ d.isAlpha = true := by
  rw [isAlpha_iff, isAlpha_iff]
  cases lower : c.isLower with
  | true =>
      refine .inr ⟨.inr rfl, ?_⟩
      cases lowerOther : d.isLower with
      | true => exact .inr rfl
      | false =>
          rw [← toUpper_eq_self lowerOther, ← same]
          exact .inl (isUpper_toUpper lower)
  | false =>
      cases lowerOther : d.isLower with
      | true =>
          rw [← toUpper_eq_self lower, same]
          exact .inr ⟨.inl (isUpper_toUpper lowerOther), .inr rfl⟩
      | false => exact .inl (by rw [← toUpper_eq_self lower, same, toUpper_eq_self lowerOther])

/-- A character that is no letter is told from others by its capital. -/
theorem toUpper_eq_iff
    {c : Char}
    (other : c.isAlpha = false)
    (d : Char) :
    d.toUpper = c ↔ d = c := by
  have single : c.toUpper = c := by
    apply toUpper_eq_self
    rw [Bool.eq_false_iff]
    intro lower
    rw [(isAlpha_iff c).mpr (.inr lower)] at other
    cases other
  constructor
  · intro same
    obtain same | ⟨_, letter⟩ := eq_or_isAlpha_of_toUpper_eq (same.trans single.symm)
    · exact same
    · rw [letter] at other
      cases other
  · rintro rfl
    exact single

/-- The small form of a character is that of its capital. -/
theorem toLower_toUpper (c : Char) :
    c.toUpper.toLower = c.toLower := by
  cases lower : c.isLower with
  | false => rw [toUpper_eq_self lower]
  | true =>
      exact of_ascii (fun c => c.toUpper.toLower = c.toLower) (by decide) (ascii_of_isLower lower)

theorem map_toUpper_eq_self
    {letters : List Char}
    (capitals : ∀ c ∈ letters, c.isLower = false) :
    letters.map Char.toUpper = letters := by
  rw [List.map_congr_left fun c listed => toUpper_eq_self (capitals c listed), List.map_id']

end Text

namespace Lexeme

theorem isNameCharacter_toUpper
    {c : Char}
    (character : isNameCharacter c = true) :
    isNameCharacter c.toUpper = true :=
  Text.of_ascii (fun c => isNameCharacter c = true → isNameCharacter c.toUpper = true)
    (by decide) (Text.ascii_of_isNameCharacter character) character

theorem isNameStart_toUpper
    {c : Char}
    (starts : isNameStart c = true) :
    isNameStart c.toUpper = true :=
  Text.of_ascii (fun c => isNameStart c = true → isNameStart c.toUpper = true)
    (by decide) (Text.ascii_of_isNameCharacter (isNameCharacter_of_isNameStart starts)) starts

/-- Characters with the same capital both go on a name, or both end it. -/
theorem isNameCharacter_eq_of_toUpper_eq
    {c d : Char}
    (same : c.toUpper = d.toUpper) :
    isNameCharacter c = isNameCharacter d := by
  obtain rfl | ⟨letter, letterOther⟩ := Text.eq_or_isAlpha_of_toUpper_eq same
  · rfl
  · rw [(isNameCharacter_iff c).mpr (.inl letter), (isNameCharacter_iff d).mpr (.inl letterOther)]

theorem isNameStart_eq_of_toUpper_eq
    {c d : Char}
    (same : c.toUpper = d.toUpper) :
    isNameStart c = isNameStart d := by
  obtain rfl | ⟨letter, letterOther⟩ := Text.eq_or_isAlpha_of_toUpper_eq same
  · rfl
  · rw [isNameStart, isNameStart, letter, letterOther, Bool.true_or, Bool.true_or]

/-- A name stays a name in another case. -/
theorem isName_eq_of_toUpper_eq
    {name other : String}
    (same : other.toList.map Char.toUpper = name.toList.map Char.toUpper) :
    isName other = isName name := by
  have capital (c : Char) : isNameCharacter c.toUpper = isNameCharacter c :=
    isNameCharacter_eq_of_toUpper_eq (Text.toUpper_eq_self (Text.isLower_toUpper c))
  have all (letters : List Char) :
      (letters.map Char.toUpper).all isNameCharacter = letters.all isNameCharacter := by
    rw [List.all_map]
    exact congrArg letters.all (funext capital)
  unfold isName
  generalize other.toList = first at same
  cases standing : name.toList with
  | nil =>
      rw [standing, List.map_nil, List.map_eq_nil_iff] at same
      rw [same]
  | cons c letters =>
      rw [standing, List.map_cons, List.map_eq_cons_iff] at same
      obtain ⟨d, others, rfl, letter, later⟩ := same
      dsimp only
      rw [isNameStart_eq_of_toUpper_eq letter, ← all others, later, all letters]

end Lexeme

namespace Machine

/-- A register may be written in either case. -/
theorem registerAddress?_eq_of_toUpper_eq
    {name other : String}
    (same : other.toList.map Char.toUpper = name.toList.map Char.toUpper) :
    registerAddress? other = registerAddress? name := by
  have letters : other.toList.map Char.toLower = name.toList.map Char.toLower := by
    have lowered := congrArg (List.map Char.toLower) same
    simpa [Function.comp_def, Text.toLower_toUpper] using lowered
  unfold registerAddress? registerIndex?
  generalize other.toList = first at letters
  generalize name.toList = second at letters
  rcases first with _ | ⟨c, _ | ⟨d, first⟩⟩ <;> rcases second with _ | ⟨e, _ | ⟨f, second⟩⟩ <;>
    simp_all

theorem isSome_registerIndex?_iff (letter : Char) :
    (registerIndex? letter).isSome = true ↔ letter ∈ "abcdefghABCDEFGH".toList := by
  by_cases ascii : letter.toNat < 128
  · exact Text.of_ascii
      (fun letter => (registerIndex? letter).isSome = true ↔ letter ∈ "abcdefghABCDEFGH".toList)
      (by decide +kernel) ascii
  · have single : letter.toLower = letter := by
      unfold Char.toLower
      rw [dif_neg]
      rintro ⟨_, small⟩
      have last : 'Z'.val.toNat < 128 := by decide
      exact ascii (Nat.lt_of_le_of_lt (UInt32.le_iff_toNat_le.mp small) last)
    have absent (letters : List Char) (small : letters.all (·.toNat < 128) = true) :
        letter ∉ letters := by
      intro listed
      exact ascii (of_decide_eq_true (List.all_eq_true.mp small letter listed))
    rw [registerIndex?, single, List.isSome_idxOf?]
    exact iff_of_false (absent _ (by decide)) (absent _ (by decide))

/-- A register has a single letter from `a` to `h`, in either case, as its name. -/
theorem isRegisterName_iff (name : String) :
    isRegisterName name = true ↔
      ∃ letter ∈ "abcdefghABCDEFGH".toList, name = String.ofList [letter] := by
  unfold isRegisterName registerAddress?
  constructor
  · intro named
    split at named
    · next letter letters =>
        rw [Option.isSome_map, isSome_registerIndex?_iff] at named
        exact ⟨letter, named, by rw [← letters, String.ofList_toList]⟩
    · cases named
  · rintro ⟨letter, listed, rfl⟩
    rw [String.toList_ofList]
    dsimp only
    rw [Option.isSome_map, isSome_registerIndex?_iff]
    exact listed

end Machine

/-- The mnemonics are names in capitals. -/
theorem Instruction.mnemonic_of_mem
    {instruction : Instruction}
    (known : instruction ∈ all) :
    Lexeme.isName instruction.mnemonic = true ∧
      (∀ c ∈ instruction.mnemonic.toList, c.isLower = false) ∧
      Text.upperCase instruction.mnemonic = instruction.mnemonic := by
  have checked : ∀ instruction ∈ all, Lexeme.isName instruction.mnemonic = true ∧
      instruction.mnemonic.toList.all (!·.isLower) = true ∧
      Text.upperCase instruction.mnemonic = instruction.mnemonic := by
    decide
  obtain ⟨named, capitals, upper⟩ := checked instruction known
  refine ⟨named, ?_, upper⟩
  simpa using capitals

end WordAsm
