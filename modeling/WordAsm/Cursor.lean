/-!
# Reading positions

A cursor stands between two characters of a source. It holds the text still to be read, the
line and column of the next character, and the text from the start of the current line on.
Lines end at line feeds only.
-/

namespace WordAsm

/-- A position in a source that is being read. -/
structure Cursor where
  rest : List Char
  line : Int
  column : Int
  lineText : List Char
  deriving DecidableEq

namespace Cursor

/-- The start of a source whose first line has the given number. -/
def start
    (source : List Char)
    (line : Int) : Cursor where
  rest := source
  line := line
  column := 1
  lineText := source

/-- Go over one character. -/
def next (cursor : Cursor) : Cursor :=
  match cursor.rest with
  | [] => cursor
  | c :: rest =>
      if c = '\n' then { rest, line := cursor.line + 1, column := 1, lineText := rest }
      else { cursor with rest, column := cursor.column + 1 }

/-- Go over a number of characters. -/
def skip : Nat → Cursor → Cursor
  | 0, cursor => cursor
  | count + 1, cursor => skip count cursor.next

/-- The text of the current line. -/
def currentLine (cursor : Cursor) : String :=
  String.ofList (cursor.lineText.takeWhile (· != '\n'))

theorem rest_next (cursor : Cursor) :
    cursor.next.rest = cursor.rest.drop 1 := by
  unfold next
  split
  · next empty => simp [empty]
  · next c rest text =>
      split <;> simp [text]

theorem rest_skip
    (count : Nat)
    (cursor : Cursor) :
    (cursor.skip count).rest = cursor.rest.drop count := by
  induction count generalizing cursor with
  | zero => rfl
  | succ count hypothesis =>
      rw [skip, hypothesis, rest_next, List.drop_drop, Nat.add_comm]

end Cursor
end WordAsm
