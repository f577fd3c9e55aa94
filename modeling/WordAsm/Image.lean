import WordAsm.Failure
import WordAsm.Machine

/-!
# Program images

A program is stored as its words one after the other, the low byte of each word first. Only
words of sixteen bits can be stored.
-/

namespace WordAsm
namespace Image

/-- Whether a number is a word of sixteen bits. -/
def isWord (n : Int) : Bool :=
  0 ≤ n && n ≤ Machine.maxWord

/-- The two bytes of a word, the low one first. -/
def wordBytes (word : Int) : List UInt8 :=
  [UInt8.ofNat (word.toNat % 256), UInt8.ofNat (word.toNat / 256)]

/-- The first number that is no word, with its position. -/
def firstExcess (words : List Int) : Option (Int × Nat) :=
  words.zipIdx.find? fun (word, _) => !isWord word

/-- Store words; the first number that is no word is refused. -/
def pack (words : List Int) : Except Failure (List UInt8) :=
  match firstExcess words with
  | some (word, index) => .error (.overall (.outputRange index word))
  | none => .ok (words.flatMap wordBytes)

/-- Read the words that are stored in bytes; an odd byte at the end is no word. -/
def unpack : List UInt8 → Option (List Int)
  | [] => some []
  | [_] => none
  | low :: high :: rest =>
      (unpack rest).map fun words => ((low.toNat + 256 * high.toNat : Nat) : Int) :: words

end Image
end WordAsm
