/-!
# Command line options

Options and arguments may stand in any order. A long option takes its value behind an equals
sign or from the next word, a short one from the rest of its word or from the next word, and
short flags may stand together. Behind a double dash all words are arguments.
-/

namespace WordAsm
namespace Command

/-- Options without a value. -/
inductive Flag
  | verbose
  | version
  | help
  deriving DecidableEq

/-- Options with a value. -/
inductive Setting
  | output
  | listing
  | symbols
  | entryPoint
  deriving DecidableEq

/-- An option by its name. -/
inductive OptionName
  | flag (flag : Flag)
  | setting (setting : Setting)
  deriving DecidableEq

namespace OptionName

/-- The option of a long name. -/
def ofLong? (name : String) : Option OptionName :=
  [("--output", .setting .output), ("--listing", .setting .listing),
    ("--symbols", .setting .symbols), ("--entry", .setting .entryPoint),
    ("--verbose", .flag .verbose), ("--version", .flag .version),
    ("--help", .flag .help)].lookup name

/-- The option of a letter. -/
def ofLetter? (letter : Char) : Option OptionName :=
  [('o', .setting .output), ('l', .setting .listing), ('s', .setting .symbols),
    ('v', .flag .verbose)].lookup letter

end OptionName

/-- The options in one word. The last one may need a value, which may stand in the word. -/
structure OptionWord where
  flags : List Flag := []
  setting : Option (Setting × Option String) := none
  deriving DecidableEq

namespace OptionWord

/-- The options that letters behind a dash stand for. -/
def ofLetters : List Char → Option OptionWord
  | [] => some {}
  | letter :: rest =>
      match OptionName.ofLetter? letter with
      | none => none
      | some (.flag flag) =>
          (ofLetters rest).map fun word => { word with flags := flag :: word.flags }
      | some (.setting setting) =>
          let value := if rest.isEmpty then none else some (String.ofList rest)
          some { setting := some (setting, value) }

/-- The options in a word that starts with a dash; nothing for a word with an unknown option
or with a value for a flag. -/
def ofText? (text : String) : Option OptionWord :=
  let name := text.toList.takeWhile (· != '=')
  let value :=
    match text.toList.drop name.length with
    | [] => none
    | _ :: value => some (String.ofList value)
  match OptionName.ofLong? (String.ofList name), value with
  | some (.setting setting), value => some { setting := some (setting, value) }
  | some (.flag flag), none => some { flags := [flag] }
  | some (.flag _), some _ => none
  | none, _ =>
      match text.toList with
      | '-' :: '-' :: _ => none
      | _ :: letters => ofLetters letters
      | [] => none

end OptionWord

/-- What a command line says: flags, settings and arguments in the order given. -/
structure CommandLine where
  flags : List Flag := []
  settings : List (Setting × String) := []
  arguments : List String := []
  deriving DecidableEq

namespace CommandLine

/-- Whether a word holds options; a dash alone is an argument. -/
def isOptionWord (word : String) : Bool :=
  match word.toList with
  | '-' :: _ :: _ => true
  | _ => false

/-- Read the remaining words of a command line; nothing if it is malformed. -/
def readFrom
    (line : CommandLine) : List String → Option CommandLine
  | [] => some line
  | word :: rest =>
      if word = "--" then some { line with arguments := line.arguments ++ rest }
      else if isOptionWord word then
        match OptionWord.ofText? word with
        | none => none
        | some options =>
            let line := { line with flags := line.flags ++ options.flags }
            match options.setting, rest with
            | none, rest => readFrom line rest
            | some (setting, some value), rest =>
                readFrom { line with settings := line.settings ++ [(setting, value)] } rest
            | some (setting, none), value :: rest =>
                readFrom { line with settings := line.settings ++ [(setting, value)] } rest
            | some _, [] => none
      else readFrom { line with arguments := line.arguments ++ [word] } rest

/-- Read the words of a command line. -/
def read (words : List String) : Option CommandLine :=
  readFrom {} words

/-- The value of a setting; the last one given counts. -/
def setting?
    (line : CommandLine)
    (setting : Setting) : Option String :=
  line.settings.reverse.lookup setting

end CommandLine

/-- A request to assemble a file. -/
structure Request where
  input : String
  output : Option String := none
  listing : Option String := none
  symbols : Option String := none
  entryPoint : String := "main"
  verbose : Bool := false
  deriving DecidableEq

/-- What a command line asks for. -/
inductive Plan
  | misuse
  | version
  | help
  | assemble (request : Request)
  deriving DecidableEq

namespace Plan

/-- The request of a command line, which has exactly one argument. -/
def ofArguments (line : CommandLine) : Plan :=
  match line.arguments with
  | [input] =>
      .assemble {
        input
        output := line.setting? .output
        listing := line.setting? .listing
        symbols := line.setting? .symbols
        entryPoint := (line.setting? .entryPoint).getD "main"
        verbose := line.flags.contains .verbose }
  | _ => .misuse

/-- The plan of a command line. The first flag that asks for information goes before all
checks of arguments. -/
def ofLine (line : CommandLine) : Plan :=
  match line.flags.filter (· != .verbose) with
  | .version :: _ => .version
  | .help :: _ => .help
  | _ => ofArguments line

/-- The plan of the words of a command line. -/
def ofWords (words : List String) : Plan :=
  match CommandLine.read words with
  | none => .misuse
  | some line => ofLine line

end Plan
end Command
end WordAsm
