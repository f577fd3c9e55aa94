import Mathlib.Data.List.Basic
import WordAsm.Image

/-!
# Stored programs are read back

Words can be stored exactly when each of them has sixteen bits. Reading the bytes then gives the
same words again.
-/

namespace WordAsm
namespace Image

theorem isWord_iff (word : Int) :
    isWord word = true ↔ 0 ≤ word ∧ word ≤ 65535 := by
  rw [isWord, Bool.and_eq_true, decide_eq_true_iff, decide_eq_true_iff]
  rfl

/-- No number is refused exactly when all of them are words. -/
theorem firstExcess_eq_none_iff (words : List Int) :
    firstExcess words = none ↔ ∀ word ∈ words, isWord word = true := by
  rw [firstExcess, List.find?_eq_none]
  constructor
  · intro none_found
    rw [← List.zipIdx_map_fst 0 words, List.forall_mem_map]
    intro entry member
    simpa using none_found entry member
  · rintro all ⟨word, index⟩ member
    simpa using all word (List.fst_mem_of_mem_zipIdx member)

/-- The first number that is refused has only words before it. -/
theorem firstExcess_eq_some_iff
    (words : List Int)
    (word : Int)
    (index : Nat) :
    firstExcess words = some (word, index) ↔
      ∃ front back, words = front ++ word :: back ∧ front.length = index ∧
        isWord word = false ∧ ∀ other ∈ front, isWord other = true := by
  rw [firstExcess, List.find?_eq_some_iff_append]
  constructor
  · rintro ⟨excess, before, after, split, earlier⟩
    obtain ⟨front, rest, rfl, rfl, rest_eq⟩ := List.zipIdx_eq_append_iff.mp split
    obtain ⟨_, back, rfl, same, _⟩ := List.zipIdx_eq_cons_iff.mp rest_eq.symm
    cases same
    refine ⟨front, back, rfl, (Nat.zero_add _).symm, by simpa using excess, ?_⟩
    rw [← List.zipIdx_map_fst 0 front, List.forall_mem_map]
    intro entry member
    simpa using earlier entry member
  · rintro ⟨front, back, rfl, rfl, excess, earlier⟩
    refine ⟨by simp [excess], front.zipIdx, back.zipIdx (front.length + 1), ?_, ?_⟩
    · rw [List.zipIdx_append, List.zipIdx_cons, Nat.zero_add]
    · rintro ⟨other, place⟩ member
      simpa using earlier other (List.fst_mem_of_mem_zipIdx member)

/-- Words at the end are not refused. -/
theorem firstExcess_append
    (front : List Int)
    {back : List Int}
    (bounded : ∀ word ∈ back, isWord word = true) :
    firstExcess (front ++ back) = firstExcess front := by
  have behind : ∀ entry ∈ back.zipIdx (0 + front.length), ¬ (!isWord entry.1) = true := by
    rintro ⟨word, index⟩ member
    simpa using bounded word (List.fst_mem_of_mem_zipIdx member)
  rw [firstExcess, List.zipIdx_append, List.find?_append, ← firstExcess]
  change (firstExcess front).or (List.find? (fun entry => !isWord entry.1) _) = _
  rw [List.find?_eq_none.mpr behind, Option.or_none]

/-- Storing fails exactly with the first number that is refused. -/
theorem pack_eq_error_iff
    (words : List Int)
    (failure : Failure) :
    pack words = .error failure ↔
      ∃ word index, firstExcess words = some (word, index) ∧
        failure = .overall (.outputRange index word) := by
  rw [pack]
  cases firstExcess words with
  | none => simp
  | some excess =>
      obtain ⟨word, index⟩ := excess
      constructor
      · intro failed
        cases failed
        exact ⟨word, index, rfl, rfl⟩
      · rintro ⟨_, _, same, rfl⟩
        cases same
        rfl

/-- Words are stored exactly when each of them has sixteen bits, the low byte of each first. -/
theorem pack_eq_ok_iff
    (words : List Int)
    (bytes : List UInt8) :
    pack words = .ok bytes ↔
      (∀ word ∈ words, isWord word = true) ∧ bytes = words.flatMap wordBytes := by
  rw [← firstExcess_eq_none_iff, pack]
  cases firstExcess words with
  | none => simp [eq_comm]
  | some excess => simp

/-- The two bytes of a word are read as the word. -/
theorem unpack_wordBytes_append
    {word : Int}
    (bounded : isWord word = true)
    (rest : List UInt8) :
    unpack (wordBytes word ++ rest) = (unpack rest).map (word :: ·) := by
  rw [isWord_iff] at bounded
  have low : (UInt8.ofNat (word.toNat % 256)).toNat = word.toNat % 256 :=
    UInt8.toNat_ofNat_of_lt' (Nat.mod_lt _ (by decide))
  have high : (UInt8.ofNat (word.toNat / 256)).toNat = word.toNat / 256 := by
    apply UInt8.toNat_ofNat_of_lt'
    change word.toNat / 256 < 256
    omega
  have value : ((word.toNat % 256 + 256 * (word.toNat / 256) : Nat) : Int) = word := by omega
  simp only [wordBytes, List.cons_append, List.nil_append, unpack, low, high, value]

/-- The bytes of words are read as the words. -/
theorem unpack_flatMap_wordBytes
    (words : List Int)
    (bounded : ∀ word ∈ words, isWord word = true) :
    unpack (words.flatMap wordBytes) = some words := by
  induction words with
  | nil => rfl
  | cons word words hypothesis =>
      rw [List.forall_mem_cons] at bounded
      rw [List.flatMap_cons, unpack_wordBytes_append bounded.1, hypothesis bounded.2,
        Option.map_some]

/-- Stored words are read back. -/
theorem unpack_of_pack
    {words : List Int}
    {bytes : List UInt8}
    (packed : pack words = .ok bytes) :
    unpack bytes = some words := by
  obtain ⟨bounded, rfl⟩ := (pack_eq_ok_iff words bytes).mp packed
  exact unpack_flatMap_wordBytes words bounded

end Image
end WordAsm
