import Mathlib.Algebra.Group.Nat.Even
import WordAsm.Proofs.Failure
import WordAsm.Proofs.Image

/-!
# What is stored and what is refused

Storing and reading undo each other, so words correspond to bytes one to one: every even number of
bytes stores exactly one list of words, and what is stored in two parts is stored one behind the
other. The first number that is no word is refused by its position and its value, as far as these
can be written.
-/

namespace WordAsm
namespace Image

/-! ## Bytes and the words that they store -/

/-- A word takes two bytes. -/
theorem length_flatMap_wordBytes (words : List Int) :
    (words.flatMap wordBytes).length = 2 * words.length := by
  induction words with
  | nil => rfl
  | cons word words hypothesis =>
      simp only [List.flatMap_cons, List.length_append, hypothesis, List.length_cons, wordBytes,
        List.length_nil]
      omega

/-- The word that is read from two bytes is stored as these bytes. -/
theorem wordBytes_of_bytes (low high : UInt8) :
    wordBytes ((low.toNat + 256 * high.toNat : Nat) : Int) = [low, high] := by
  have lowBound : low.toNat < 256 := low.toNat_lt
  have remainder : (low.toNat + 256 * high.toNat) % 256 = low.toNat := by omega
  have quotient : (low.toNat + 256 * high.toNat) / 256 = high.toNat := by omega
  rw [wordBytes, Int.toNat_natCast, remainder, quotient, UInt8.ofNat_toNat, UInt8.ofNat_toNat]

/-- Two bytes hold a word of sixteen bits. -/
theorem isWord_of_bytes (low high : UInt8) :
    isWord ((low.toNat + 256 * high.toNat : Nat) : Int) = true := by
  have lowBound : low.toNat < 256 := low.toNat_lt
  have highBound : high.toNat < 256 := high.toNat_lt
  rw [isWord_iff]
  omega

/-- What is read from bytes is stored as these bytes. -/
theorem pack_of_unpack
    {bytes : List UInt8}
    {words : List Int}
    (read : unpack bytes = some words) :
    pack words = .ok bytes := by
  rw [pack_eq_ok_iff]
  fun_induction unpack bytes generalizing words with
  | case1 =>
      cases read
      simp
  | case2 => cases read
  | case3 low high rest hypothesis =>
      obtain ⟨later, found, rfl⟩ := Option.map_eq_some_iff.mp read
      obtain ⟨bounded, rest_eq⟩ := hypothesis found
      rw [List.forall_mem_cons, List.flatMap_cons, wordBytes_of_bytes, ← rest_eq]
      exact ⟨⟨isWord_of_bytes low high, bounded⟩, rfl⟩

/-- Bytes store words exactly when these are read from them. -/
theorem pack_eq_ok_iff_unpack
    (words : List Int)
    (bytes : List UInt8) :
    pack words = .ok bytes ↔ unpack bytes = some words :=
  ⟨unpack_of_pack, pack_of_unpack⟩

/-- Words can be read from every even number of bytes. -/
theorem exists_unpack_of_even
    {bytes : List UInt8}
    (even : Even bytes.length) :
    ∃ words, unpack bytes = some words := by
  fun_induction unpack bytes with
  | case1 => exact ⟨[], rfl⟩
  | case2 => simp at even
  | case3 low high rest hypothesis =>
      rw [List.length_cons, List.length_cons, Nat.even_add_one, Nat.even_add_one, not_not] at even
      obtain ⟨words, read⟩ := hypothesis even
      exact ⟨_, Option.map_eq_some_iff.mpr ⟨words, read, rfl⟩⟩

/-- Every even number of bytes stores exactly one list of words. -/
theorem existsUnique_pack
    {bytes : List UInt8}
    (even : Even bytes.length) :
    ∃! words, pack words = .ok bytes := by
  obtain ⟨words, read⟩ := exists_unpack_of_even even
  simp only [pack_eq_ok_iff_unpack, read, Option.some.injEq]
  exact existsUnique_eq'

/-- What is stored in two parts is stored one behind the other. -/
theorem pack_append_eq_ok_iff
    (first second : List Int)
    (bytes : List UInt8) :
    pack (first ++ second) = .ok bytes ↔
      ∃ front back, pack first = .ok front ∧ pack second = .ok back ∧ bytes = front ++ back := by
  simp only [pack_eq_ok_iff, List.forall_mem_append, List.flatMap_append]
  constructor
  · rintro ⟨⟨bounded, boundedOther⟩, rfl⟩
    exact ⟨_, _, ⟨bounded, rfl⟩, ⟨boundedOther, rfl⟩, rfl⟩
  · rintro ⟨_, _, ⟨bounded, rfl⟩, ⟨boundedOther, rfl⟩, rfl⟩
    exact ⟨⟨bounded, boundedOther⟩, rfl⟩

/-! ## Numbers that are refused -/

/-- How storing numbers fails: at the first one that is no word. Its position and its value are
reported, unless one of the two has more decimal digits than the limit. -/
inductive Refused (words : List Int) : Failure → Prop
  | reported {front back : List Int} {word : Int} :
      words = front ++ word :: back →
      (∀ other ∈ front, 0 ≤ other ∧ other ≤ 65535) →
      ¬ (0 ≤ word ∧ word ≤ 65535) →
      (Nat.toDigits 10 front.length).length ≤ 4300 →
      (Nat.toDigits 10 word.natAbs).length ≤ 4300 →
      Refused words (.program { cause := .outputRange front.length word })
  | unwritable {front back : List Int} {word : Int} :
      words = front ++ word :: back →
      (∀ other ∈ front, 0 ≤ other ∧ other ≤ 65535) →
      ¬ (0 ≤ word ∧ word ≤ 65535) →
      (4300 < (Nat.toDigits 10 front.length).length ∨
        4300 < (Nat.toDigits 10 word.natAbs).length) →
      Refused words .longNumber

/-- The position and the value of a number are reported exactly if both can be written. -/
theorem isWritable_outputRange_iff
    (index : Nat)
    (word : Int) :
    (Cause.outputRange index word).isWritable = true ↔
      (Nat.toDigits 10 index).length ≤ 4300 ∧ (Nat.toDigits 10 word.natAbs).length ≤ 4300 := by
  rw [Cause.isWritable, Bool.and_eq_true, Text.isWritable_iff, Text.isWritable_iff,
    Int.natAbs_natCast]

theorem firstExcess_eq_some_iff_range
    (words : List Int)
    (word : Int)
    (index : Nat) :
    firstExcess words = some (word, index) ↔
      ∃ front back, words = front ++ word :: back ∧ front.length = index ∧
        ¬ (0 ≤ word ∧ word ≤ 65535) ∧ ∀ other ∈ front, 0 ≤ other ∧ other ≤ 65535 := by
  simp only [firstExcess_eq_some_iff, ← Bool.not_eq_true, isWord_iff]

theorem pack_eq_error_iff_refused
    (words : List Int)
    (failure : Failure) :
    pack words = .error failure ↔ Refused words failure := by
  simp only [pack_eq_error_iff, firstExcess_eq_some_iff_range]
  constructor
  · rintro ⟨word, _, ⟨front, back, words_eq, rfl, excess, earlier⟩, rfl⟩
    by_cases writable : (Cause.outputRange front.length word).isWritable = true
    · obtain ⟨short, shortValue⟩ := (isWritable_outputRange_iff ..).mp writable
      rw [Failure.overall, Failure.ofFault_of_writable writable]
      exact .reported words_eq earlier excess short shortValue
    · rw [Failure.overall, Failure.ofFault_of_unwritable (Bool.not_eq_true _ ▸ writable)]
      rw [isWritable_outputRange_iff, not_and_or, Nat.not_le, Nat.not_le] at writable
      exact .unwritable words_eq earlier excess writable
  · intro refused
    cases refused with
    | @reported front back word words_eq earlier excess short shortValue =>
        refine ⟨word, _, ⟨front, back, words_eq, rfl, excess, earlier⟩, ?_⟩
        have writable := (isWritable_outputRange_iff ..).mpr ⟨short, shortValue⟩
        rw [Failure.overall, Failure.ofFault_of_writable writable]
    | @unwritable front back word words_eq earlier excess long =>
        refine ⟨word, _, ⟨front, back, words_eq, rfl, excess, earlier⟩, ?_⟩
        rw [← Nat.not_le, ← Nat.not_le, ← not_and_or, ← isWritable_outputRange_iff,
          Bool.not_eq_true] at long
        rw [Failure.overall, Failure.ofFault_of_unwritable long]

/-- Numbers are stored exactly when all of them are words, in two bytes each, and are then read back
from the bytes. Every even number of bytes stores exactly one list of words, and what is stored in
two parts is stored one behind the other. Otherwise the first number that is no word is refused. -/
theorem pack_outcomes (words : List Int) :
    ((∃ bytes, pack words = .ok bytes) ↔ ∀ word ∈ words, 0 ≤ word ∧ word ≤ 65535) ∧
    (∀ bytes, pack words = .ok bytes →
      bytes.length = 2 * words.length ∧ unpack bytes = some words) ∧
    (∀ bytes : List UInt8, Even bytes.length → ∃! stored, pack stored = .ok bytes) ∧
    (∀ others bytes, pack (words ++ others) = .ok bytes ↔
      ∃ front back, pack words = .ok front ∧ pack others = .ok back ∧ bytes = front ++ back) ∧
    (∀ failure, pack words = .error failure ↔ Refused words failure) := by
  refine ⟨?_, fun bytes packed => ⟨?_, unpack_of_pack packed⟩, fun bytes => existsUnique_pack,
    pack_append_eq_ok_iff words, pack_eq_error_iff_refused words⟩
  · simp only [pack_eq_ok_iff, exists_and_left, exists_eq, and_true, isWord_iff]
  · rw [((pack_eq_ok_iff words bytes).mp packed).2, length_flatMap_wordBytes]

/-- The number behind the last word is refused by its position and its value, but a number of 4301
digits cannot be written. -/
theorem pack_outcomes_beyond :
    pack [65535, 65536, -1] = .error (.program { cause := .outputRange 1 65536 }) ∧
      pack [((10 ^ 4300 : Nat) : Int)] = .error .longNumber := by
  constructor
  · apply ((pack_outcomes _).2.2.2.2 _).mpr
    exact @Refused.reported _ [65535] [-1] 65536 rfl (by decide) (by decide) (by decide) (by decide)
  · -- Stated for every count, since the power itself is too large to compute with.
    have grows (count : Nat) (above : 5 ≤ count) :
        10 ^ 5 ≤ 10 ^ count ∧ count < (Nat.toDigits 10 (10 ^ count)).length := by
      refine ⟨Nat.pow_le_pow_right (by decide) above, ?_⟩
      rw [← Nat.not_le, Nat.length_toDigits_le_iff (by decide) (by omega)]
      exact lt_irrefl _
    obtain ⟨large, long⟩ := grows 4300 (by decide)
    generalize 10 ^ 4300 = number at large long ⊢
    apply ((pack_outcomes _).2.2.2.2 _).mpr
    exact @Refused.unwritable _ [] [] number rfl (by simp) (by omega) (.inr long)

end Image
end WordAsm
