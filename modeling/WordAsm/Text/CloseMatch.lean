/-!
# Close matches

How alike two texts are, and the best few of a list of candidates. The measure counts the
characters in common blocks: take the longest block that both texts hold, the earliest in the
candidate and then in the word among equals, and go on to the left and to the right of it.

In a word of two hundred characters or more the frequent characters do not start a block, but
a block found without them grows over them on both sides.
-/

namespace WordAsm
namespace Text
namespace CloseMatch

/-- A block that two texts share: where it starts in each, and its length. -/
structure Block where
  left : Nat
  right : Nat
  size : Nat
  deriving DecidableEq

/-- Lengths of the common blocks that end at one character of the candidate and at each
character of the word, from the lengths for the candidate's preceding character. -/
def endingLengths
    (indexed : Char → Bool)
    (c : Char)
    (word : List Char)
    (previous : List Nat) : List Nat :=
  if indexed c then
    (word.zip (0 :: previous)).map fun (d, before) => if c == d then before + 1 else 0
  else word.map fun _ => 0

/-- Take a longer block that ends at character `leftEnd` of the candidate, first come first
served. -/
def improve
    (best : Block)
    (leftEnd : Nat)
    (lengths : List Nat) : Block :=
  lengths.zipIdx.foldl
    (fun best (size, rightEnd) =>
      if best.size < size then ⟨leftEnd + 1 - size, rightEnd + 1 - size, size⟩ else best)
    best

/-- The longest common block of two texts that consists of indexed characters. -/
def longestIndexed
    (indexed : Char → Bool)
    (candidate word : List Char) : Block :=
  let start : Block × List Nat := (⟨0, 0, 0⟩, word.map fun _ => 0)
  (candidate.zipIdx.foldl
    (fun (best, previous) (c, leftEnd) =>
      let lengths := endingLengths indexed c word previous
      (improve best leftEnd lengths, lengths))
    start).1

/-- Length of the common beginning of two texts. -/
def agreement : List Char → List Char → Nat
  | c :: candidate, d :: word => if c == d then agreement candidate word + 1 else 0
  | _, _ => 0

/-- A block grown to the left, then to the right, as far as the texts agree. -/
def grow
    (candidate word : List Char)
    (block : Block) : Block :=
  let before :=
    agreement (candidate.take block.left).reverse (word.take block.right).reverse
  let after :=
    agreement (candidate.drop (block.left + block.size)) (word.drop (block.right + block.size))
  ⟨block.left - before, block.right - before, before + block.size + after⟩

/-- The block that the comparison of two texts starts from. -/
def firstBlock
    (indexed : Char → Bool)
    (candidate word : List Char) : Block :=
  grow candidate word (longestIndexed indexed candidate word)

/-- Number of characters in the common blocks of two texts. -/
def matched
    (indexed : Char → Bool)
    (candidate word : List Char) : Nat :=
  match firstBlock indexed candidate word with
  | ⟨left, right, size⟩ =>
      if 0 < size ∧ left + size ≤ candidate.length then
        matched indexed (candidate.take left) (word.take right) + size +
          matched indexed (candidate.drop (left + size)) (word.drop (right + size))
      else 0
termination_by candidate.length
decreasing_by
  all_goals
    simp only [List.length_take, List.length_drop]
    omega

/-- Whether a character may start a block: every one in a short word, in a long word those
that make up no more than about a hundredth of it. -/
def isIndexed
    (word : List Char)
    (c : Char) : Bool :=
  word.length < 200 || word.count c ≤ word.length / 100 + 1

/-- A candidate with its characters in common blocks and the length of both texts. -/
structure Score where
  name : String
  common : Nat
  total : Nat
  deriving DecidableEq

/-- Measure a candidate against a word. -/
def score
    (word candidate : String) : Score :=
  let w := word.toList
  let c := candidate.toList
  ⟨candidate, matched (isIndexed w) c w, c.length + w.length⟩

/-- Whether three fifths of the two texts agree; two empty texts do. -/
def Score.isClose (score : Score) : Bool :=
  3 * score.total ≤ 10 * score.common

/-- Whether a score goes before another: the greater share first, then the greater name. -/
def Score.before
    (first second : Score) : Bool :=
  let firstShare := first.common * second.total
  let secondShare := second.common * first.total
  if firstShare == secondShare then second.name ≤ first.name else secondShare < firstShare

end CloseMatch

/-- The three best among the candidates that are close to a word, best first. -/
def closeMatches
    (word : String)
    (candidates : List String) : List String :=
  let close := (candidates.map (CloseMatch.score word)).filter (·.isClose)
  ((close.mergeSort CloseMatch.Score.before).take 3).map (·.name)

end Text
end WordAsm
