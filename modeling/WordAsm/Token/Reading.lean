import WordAsm.Cursor
import WordAsm.Lexeme.Scan

/-!
# Tokens of a source

Reading goes in two steps. The first cuts the source into lexemes and notes where each stands.
The second gives every lexeme its meaning from its line and section: the first word of a line
outside the data section is a mnemonic, any other word is a type word, a register or a name,
and the end of a line counts only when the line holds something.

A malformed lexeme ends the reading; the tokens before it are kept.
-/

namespace WordAsm

/-- A lexeme and the place where it starts. -/
structure Lexeme.Placed where
  lexeme : Lexeme
  line : Int
  column : Int
  deriving DecidableEq

namespace Lexeme

/-- The place of a lexeme between two cursors. It stands on the line on which it starts; line
zero is no line of a source, and what starts there is counted on the line on which it ends. -/
def place
    (lexeme : Lexeme)
    (start stop : Cursor) : Placed where
  lexeme := lexeme
  line := if start.line = 0 then stop.line else start.line
  column := start.column

/-- The failure that an error causes in a file, at a cursor before the offending lexeme. -/
def Error.failure
    (file : String)
    (start : Cursor) : Error → Failure
  | .longNumeral digits => .longNumeral digits
  | .malformed cause offset =>
      let spot := start.skip offset
      .ofFault {
        cause
        location := some { file, line := spot.line, column := spot.column }
        sourceLine := some spot.currentLine }

/-- Lexemes in order, the cursor behind the last one, and what ended the reading early. -/
structure Run where
  lexemes : List Placed
  stop : Cursor
  failure : Option Failure

/-- Reading a lexeme leaves less text. -/
theorem shorter_of_scan
    {cursor : Cursor}
    {c : Char}
    {rest : List Char}
    {lexeme : Lexeme}
    {length : Nat}
    (text : cursor.rest = c :: rest)
    (read : scan c rest = .ok (lexeme, length)) :
    (cursor.skip length).rest.length < cursor.rest.length := by
  have positive := scan_length_pos read
  rw [Cursor.rest_skip, List.length_drop, text, List.length_cons]
  omega

/-- Cut the text from a cursor on into lexemes, given those before it. -/
def runFrom
    (file : String)
    (cursor : Cursor)
    (before : Array Placed) : Run :=
  match text : cursor.rest with
  | [] => ⟨before.toList, cursor, none⟩
  | c :: rest =>
      match read : scan c rest with
      | .error error => ⟨before.toList, cursor, some (error.failure file cursor)⟩
      | .ok (lexeme, length) =>
          have := shorter_of_scan text read
          runFrom file (cursor.skip length)
            (before.push (lexeme.place cursor (cursor.skip length)))
termination_by cursor.rest.length

end Lexeme

/-- What the meaning of a lexeme depends on: whether its line holds a token yet, whether a word
would be a mnemonic by its place on the line, and the section. -/
structure Token.Context where
  lineHasTokens : Bool := false
  awaitsMnemonic : Bool := true
  sectionName : Option String := none
  deriving DecidableEq

namespace Token
namespace Context

/-- The meaning of a word. Names are ASCII, so their capitals are too. -/
def wordContent
    (context : Context)
    (name : String) : Content :=
  let capitals := String.ofList (name.toList.map Char.toUpper)
  if context.awaitsMnemonic ∧ context.sectionName ≠ some "data" then .mnemonic capitals
  else if capitals = "NUM" ∨ capitals = "CHR" then .typeWord capitals
  else if Machine.isRegisterName name then .register name
  else .symbol name

/-- The meaning of a lexeme; blanks, comments and the ends of empty lines have none. -/
def content?
    (context : Context) : Lexeme → Option Content
  | .blank | .comment => none
  | .lineBreak => if context.lineHasTokens then some .lineEnd else none
  | .comma => some .comma
  | .marker name => some (.marker name)
  | .label name => some (.label name)
  | .word name => some (context.wordContent name)
  | .number value => some (.number value)
  | .character value => some (.character (String.ofList [value]))

/-- The context behind a lexeme. A label leaves the place of the mnemonic open. -/
def after
    (context : Context) : Lexeme → Context
  | .blank | .comment => context
  | .lineBreak => { context with lineHasTokens := false, awaitsMnemonic := true }
  | .label _ => { context with lineHasTokens := true }
  | .marker name =>
      { lineHasTokens := true, awaitsMnemonic := false, sectionName := some name }
  | .comma | .word _ | .number _ | .character _ =>
      { context with lineHasTokens := true, awaitsMnemonic := false }

end Context

/-- The tokens of a source, and what ended the reading early. -/
structure Reading where
  tokens : List Token
  failure : Option Failure

namespace Reading

/-- Give one more lexeme its meaning. -/
def step
    (file : String)
    (state : Context × Array Token)
    (placed : Lexeme.Placed) : Context × Array Token :=
  let (context, tokens) := state
  let tokens :=
    match context.content? placed.lexeme with
    | some content =>
        tokens.push { content, location := { file, line := placed.line, column := placed.column } }
    | none => tokens
  (context.after placed.lexeme, tokens)

/-- Give the lexemes of a run their meaning. A complete source ends its last line itself. -/
def ofRun
    (file : String)
    (run : Lexeme.Run) : Reading :=
  let (context, tokens) := run.lexemes.foldl (step file) ({}, #[])
  let closing : List Token :=
    if run.failure.isNone ∧ context.lineHasTokens then
      let location := { file, line := run.stop.line, column := run.stop.column }
      [{ content := .lineEnd, location }]
    else []
  ⟨tokens.toList ++ closing, run.failure⟩

/-- The tokens, or the failure that ended the reading. -/
def result (reading : Reading) : Except Failure (List Token) :=
  match reading.failure with
  | some failure => .error failure
  | none => .ok reading.tokens

end Reading

/-- Read the tokens of a source. -/
def read
    (source : String)
    (file : String := "<input>")
    (line : Int := 1) : Reading :=
  .ofRun file (Lexeme.runFrom file (.start source.toList line) #[])

/-- The tokens of a source that can be read to its end. -/
def ofSource
    (source : String)
    (file : String := "<input>") : Except Failure (List Token) :=
  (read source file).result

end Token
end WordAsm
