/-!
# Plain text

Texts without the sequences that steer a terminal. A control sequence is an escape character
and an opening bracket, any number of parameters (digits, semicolons and question marks), and
one ASCII letter. An escape character that starts no such sequence stays in the text.

What is left when sequences are taken out is not searched again, so an escape character and a
bracket that only meet then stay too.
-/

namespace WordAsm
namespace Text

/-- The character that starts a control sequence. -/
def escape : Char :=
  '\x1b'

/-- Whether a character may stand between the bracket and the letter of a control sequence. -/
def isParameter (c : Char) : Bool :=
  c.isDigit || c == ';' || c == '?'

/-- The characters behind the control sequence at the start of a text, if there is one. -/
def afterSequence? : List Char → Option (List Char)
  | c :: '[' :: rest =>
      if c == escape then
        match rest.dropWhile isParameter with
        | final :: behind => if final.isAlpha then some behind else none
        | [] => none
      else none
  | _ => none

/-- A control sequence is not empty. -/
theorem afterSequence?_shorter
    {text behind : List Char}
    (found : afterSequence? text = some behind) :
    behind.length < text.length := by
  unfold afterSequence? at found
  split at found
  case h_2 => simp at found
  case h_1 c rest =>
    have parameters : (rest.dropWhile isParameter).length ≤ rest.length :=
      (List.dropWhile_sublist _).length_le
    split at found
    case isFalse => simp at found
    case isTrue =>
      split at found
      case h_2 => simp at found
      case h_1 final tail split_eq =>
        rw [split_eq] at parameters
        split at found
        case isFalse => simp at found
        case isTrue =>
          obtain rfl := Option.some.inj found
          simp only [List.length_cons] at parameters ⊢
          omega

/-- The characters of a text outside its control sequences, behind those already kept, which
are given last first. -/
def plainFrom
    (kept text : List Char) : List Char :=
  match _ : afterSequence? text with
  | some behind => plainFrom kept behind
  | none =>
      match text with
      | [] => kept.reverse
      | c :: rest => plainFrom (c :: kept) rest
  termination_by text.length
  decreasing_by
    · exact afterSequence?_shorter (by assumption)
    · simp

/-- A text without its control sequences. -/
def plain (text : String) : String :=
  String.ofList (plainFrom [] text.toList)

end Text
end WordAsm
