import WordAsm.Assembly
import WordAsm.Text.Plain

/-!
# Progress reports

What a command tells about its work when asked to: lines of its output, and log lines of two
levels. A stage is reported when it is done.
-/

namespace WordAsm
namespace Command

/-- Where a report goes. -/
inductive Channel
  | output
  | info
  | debug
  deriving DecidableEq

/-- A line about the progress of the work. -/
structure Event where
  channel : Channel
  text : String
  deriving DecidableEq

namespace Event

/-- The line of an event on the output, if it goes there: plain text. -/
def outputLine? (event : Event) : Option String :=
  match event.channel with
  | .output => some (Text.plain event.text ++ "\n")
  | .info | .debug => none

/-- The line of an event in the log, if it goes there: its text as it stands. -/
def logLine? (event : Event) : Option String :=
  match event.channel with
  | .output => none
  | .info => some ("INFO: " ++ event.text ++ "\n")
  | .debug => some ("DEBUG: " ++ event.text ++ "\n")

end Event

namespace Progress

/-- A section has been found. -/
def sectionFound (found : Section) : Event :=
  let name := found.name
  let line := found.line
  let count := found.tokens.length
  ⟨.debug, s!"section '{name}' at line {line}: {count} tokens"⟩

/-- A label has been bound. -/
def labelBound (binding : Address.Binding) : Event :=
  let name := binding.name
  let address := Text.hexadecimal 4 binding.address
  let line := binding.line
  ⟨.debug, s!"label '{name}' = ${address} (line {line})"⟩

/-- Instructions have been encoded. -/
def encoded (entries : List Entry) : Event :=
  let instructions := entries.length
  let words := (Entry.allWords entries).length
  ⟨.debug, s!"encoded {instructions} instruction(s), {words} word(s)"⟩

/-- A program has been assembled. -/
def assembled
    (settings : Settings)
    (constants : List Constant)
    (code : Code) : Event :=
  let words := (code.words ++ Assembly.terminator settings).length
  let constants := constants.length
  let labels := code.labels.entries.length
  ⟨.info, s!"assembled {words} word(s): {constants} constant(s), {labels} label(s)"⟩

/-- The reports on resolved tokens. -/
def ofResolved
    (settings : Settings)
    (constants : List Constant)
    (resolved : List Token) : List Event :=
  (Address.bindings resolved).map labelBound ++
    match Code.generate resolved with
    | .error _ => []
    | .ok code => [encoded code.entries, assembled settings constants code]

/-- The reports on a code section. -/
def ofCode
    (settings : Settings)
    (constants : List Constant)
    (code : List Token) : List Event :=
  match Symbols.validate code constants settings.entryPoint with
  | .error _ => []
  | .ok symbols =>
      let labels := symbols.labels.length
      let entryPoint := settings.entryPoint
      ⟨.debug, s!"validated {labels} label(s), entry point '{entryPoint}'"⟩ ::
        match Token.resolveAll symbols code with
        | .error _ => []
        | .ok resolved => ofResolved settings constants resolved

/-- The reports on a token list. -/
def ofTokens
    (settings : Settings)
    (tokens : List Token) : List Event :=
  match Layout.ofTokens tokens with
  | .error _ => []
  | .ok layout =>
      layout.inOrder.map sectionFound ++
        match Constant.compile layout.data.tokens with
        | .error _ => []
        | .ok constants =>
            let count := constants.length
            ⟨.debug, s!"compiled {count} constant(s)"⟩ ::
              ofCode settings constants layout.code.tokens

/-- The reports on a source text. -/
def ofSource
    (settings : Settings)
    (source : String)
    (file : String) : List Event :=
  ⟨.debug, s!"tokenizing {file}"⟩ ::
    match Token.ofSource source file with
    | .error _ => []
    | .ok tokens =>
        let count := tokens.length
        ⟨.debug, s!"{count} token(s)"⟩ :: ofTokens settings tokens

end Progress
end Command
end WordAsm
