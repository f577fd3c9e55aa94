import Mathlib.Data.Nat.Digits.Defs
import WordAsm.Proofs.Lexeme.Grammar
import WordAsm.Proofs.Token.Reads
import WordAsm.Token.Rendering

/-!
# Spellings are read back

Every content has a spelling, and where no name runs into it, the spelling is cut as one lexeme
that means the content again. Numbers are spelled in hexadecimal, so they have no limit.
-/

namespace WordAsm
namespace Text

theorem digitValue_digitChar
    {digit : Nat}
    (small : digit < 16) :
    digitValue (Nat.digitChar digit) = digit := by
  revert digit
  decide

theorem isHexDigit_digitChar
    {digit : Nat}
    (small : digit < 16) :
    isHexDigit (Nat.digitChar digit) = true := by
  revert digit
  decide

/-- The hexadecimal digits of a number denote it. -/
theorem valueOf_toDigits (n : Nat) :
    valueOf 16 (Nat.toDigits 16 n) = n := by
  induction n using Nat.strongRecOn with
  | ind n hypothesis =>
      by_cases small : n < 16
      · rw [Nat.toDigits_of_lt_base small]
        simp [valueOf, digitValue_digitChar small]
      · have positive : n / 16 < n := by omega
        have last : n % 16 < 16 := Nat.mod_lt _ (by decide)
        rw [Nat.toDigits_of_base_le (by decide) (Nat.le_of_not_lt small), valueOf,
          List.foldl_append, ← valueOf, hypothesis _ positive]
        simp only [List.foldl_cons, List.foldl_nil, digitValue_digitChar last]
        omega

/-- Every hexadecimal digit of a number is the digit of a number below sixteen. -/
theorem exists_digitChar_of_mem_toDigits
    {n : Nat}
    {c : Char}
    (listed : c ∈ Nat.toDigits 16 n) :
    ∃ digit < 16, c = Nat.digitChar digit := by
  induction n using Nat.strongRecOn with
  | ind n hypothesis =>
      by_cases small : n < 16
      · rw [Nat.toDigits_of_lt_base small, List.mem_singleton] at listed
        exact ⟨n, small, listed⟩
      · rw [Nat.toDigits_of_base_le (by decide) (Nat.le_of_not_lt small), List.mem_append,
          List.mem_singleton] at listed
        obtain listed | last := listed
        · exact hypothesis _ (by omega) listed
        · exact ⟨n % 16, Nat.mod_lt _ (by decide), last⟩

theorem isHexDigit_of_mem_toDigits
    (n : Nat) :
    ∀ c ∈ Nat.toDigits 16 n, isHexDigit c = true := by
  intro c listed
  obtain ⟨digit, small, rfl⟩ := exists_digitChar_of_mem_toDigits listed
  exact isHexDigit_digitChar small

end Text

namespace Lexeme

/-- Whether a text ends what is spelled before it. -/
def Delimits (rest : List Char) : Prop :=
  ∀ c ∈ rest.head?, isNameCharacter c = false ∧ c ≠ ':'

/-- A number is a hexadecimal numeral, with a sign if it is negative. -/
theorem spelled_spellNumber (value : Int) :
    Spelled (Token.Content.spellNumber value) (.number value) := by
  have numeral : Numeral ('0' :: 'x' :: Nat.toDigits 16 value.natAbs) value.natAbs := by
    have hexadecimal : Numeral (['0', 'x'] ++ Nat.toDigits 16 value.natAbs)
        (Text.valueOf Radix.hexadecimal.base (Nat.toDigits 16 value.natAbs)) := by
      refine .intro (.letter rfl) Nat.toDigits_ne_nil (Text.isHexDigit_of_mem_toDigits _) ?_
      -- The limit on digits is for decimal numerals only.
      rintro ⟨⟩
    rwa [Radix.base, Text.valueOf_toDigits] at hexadecimal
  unfold Token.Content.spellNumber
  by_cases negative : value < 0
  · have value_eq : -(value.natAbs : Int) = value := by omega
    have spelled := Spelled.negative numeral
    rw [value_eq] at spelled
    rwa [if_pos negative]
  · have value_eq : (value.natAbs : Int) = value := by omega
    have spelled := Spelled.number numeral
    rw [value_eq] at spelled
    rwa [if_neg negative]

/-- A character is written between quotes. -/
theorem spelled_spellCharacter (c : Char) :
    Spelled (Token.Content.spellCharacter c) (.character c) := by
  unfold Token.Content.spellCharacter
  by_cases lineFeed : c = '\n'
  · rw [if_pos lineFeed, lineFeed]
    exact .character (.escape (c := 'n') (by decide))
  · rw [if_neg lineFeed]
    by_cases special : c = '\'' ∨ c = '\\'
    · rw [if_pos special]
      obtain rfl | rfl := special
      · exact .character (.escape (c := '\'') (by decide))
      · exact .character (.escape (c := '\\') (by decide))
    · rw [if_neg special]
      exact .character (.plain lineFeed fun backslash => special (.inr backslash))

end Lexeme

namespace Token

/-- The lexeme that a content is written as. Names must be names, and a label must not have the
name of a register. -/
inductive Content.WrittenAs : Content → Lexeme → Prop
  | marker {name : String} :
      Lexeme.isName name = true →
      WrittenAs (.marker name) (.marker name)
  | label {name : String} :
      Lexeme.isName name = true →
      Machine.isRegisterName name = false →
      WrittenAs (.label name) (.label name)
  | lineEnd :
      WrittenAs .lineEnd .lineBreak
  | comma :
      WrittenAs .comma .comma
  | mnemonic {name : String} :
      Lexeme.isName name = true →
      WrittenAs (.mnemonic name) (.word name)
  | typeWord {name : String} :
      Lexeme.isName name = true →
      WrittenAs (.typeWord name) (.word name)
  | register {name : String} :
      Lexeme.isName name = true →
      WrittenAs (.register name) (.word name)
  | symbol {name : String} :
      Lexeme.isName name = true →
      WrittenAs (.symbol name) (.word name)
  | number (value : Int) :
      WrittenAs (.number value) (.number value)
  | character (c : Char) :
      WrittenAs (.character (String.ofList [c])) (.character c)

/-- The spelling of a content is a way to write its lexeme. -/
theorem Content.WrittenAs.spelled
    {content : Content}
    {lexeme : Lexeme}
    (written : content.WrittenAs lexeme) :
    Lexeme.Spelled content.spelling lexeme := by
  cases written with
  | marker named => exact .marker named
  | label named free => exact .label named free
  | lineEnd => exact .lineBreak
  | comma => exact .comma
  | mnemonic named | typeWord named | register named | symbol named => exact .word named
  | number value => exact Lexeme.spelled_spellNumber value
  | character c =>
      rw [spelling, String.toList_ofList, List.flatMap_singleton]
      exact Lexeme.spelled_spellCharacter c

/-- What is spelled stops where no name runs into it. The end of a line needs no such care. -/
theorem Content.WrittenAs.stopsAt
    {content : Content}
    {lexeme : Lexeme}
    {rest : List Char}
    (written : content.WrittenAs lexeme)
    (delimited : content = .lineEnd ∨ Lexeme.Delimits rest) :
    lexeme.StopsAt rest.head? := by
  obtain rfl | delimited := delimited
  · cases written
    trivial
  cases written with
  | label | lineEnd | comma | character => trivial
  | mnemonic | typeWord | register | symbol => exact delimited
  | marker | number => exact fun c first => (delimited c first).1

/-- What is spelled reads as itself where the context gives it this meaning. -/
theorem Reads.spelled
    {context : Context}
    {content : Content}
    {lexeme : Lexeme}
    {rest : List Char}
    {contents : List Content}
    (written : content.WrittenAs lexeme)
    (meant : context.content? lexeme = some content)
    (delimited : content = .lineEnd ∨ Lexeme.Delimits rest)
    (reading : Reads (context.after lexeme) rest contents) :
    Reads context (content.spelling ++ rest) (content :: contents) := by
  have read := Reads.of_spelled written.spelled (written.stopsAt delimited) reading
  rwa [meant] at read

end Token
end WordAsm
