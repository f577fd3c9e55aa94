import WordAsm.Command.Exit
import WordAsm.Command.Options
import WordAsm.Command.Progress
import WordAsm.Workbench

/-!
# Running a command

A command assembles one file and writes the program and, on request, its listing and its
symbol file. Nothing is written unless the whole program could be assembled and stored. The
work is the same whether or not progress is shown.
-/

namespace WordAsm
namespace Command

/-- How a command ends: misused, or with an exit code and what it printed. -/
inductive Outcome
  | misuse
  | ended (code : Nat) (output errors : String)
  deriving DecidableEq

/-- What a piece of work reported, and what stopped it. -/
structure Report where
  events : List Event := []
  failure : Option Failure := none
  deriving DecidableEq

variable {m : Type → Type} [Monad m] [Files m]

/-- Do one piece of work and, unless it fails, another. -/
def Report.andThen
    (first second : m Report) : m Report := do
  let done ← first
  match done.failure with
  | some _ => return done
  | none =>
      let more ← second
      return ⟨done.events ++ more.events, more.failure⟩

/-- A piece of work that reports some events when it is done. -/
def Report.upon
    (work : m (Except Failure Unit))
    (events : List Event) : m Report := do
  match ← work with
  | .ok () => return { events }
  | .error failure => return { failure := some failure }

namespace Request

/-- Where the program is written: beside the input, if nothing else is asked for. -/
def imagePath (request : Request) : String :=
  match request.output with
  | some path => Path.normalize path
  | none => Path.withSuffix ".bin" request.input

/-- The settings of the assembly. -/
def settings (request : Request) : Settings :=
  { entryPoint := request.entryPoint }

/-- Whether an optional path may be written to as far as can be told: it names no folder. -/
def isWritable : Option String → m Bool
  | none => return true
  | some path => return (← Files.kind? path) != some .folder

/-- Whether the input is a file and no output names a folder. -/
def isAcceptable (request : Request) : m Bool := do
  let input ← Files.kind? request.input
  let output ← isWritable request.output
  let listing ← isWritable request.listing
  let symbols ← isWritable request.symbols
  return input == some .file && output && listing && symbols

/-- The paths that the command line gives. -/
def paths (request : Request) : List String :=
  request.input :: [request.output, request.listing, request.symbols].filterMap id

/-- Write the program. -/
def storeImage
    (request : Request)
    (bench : Workbench) : m Report :=
  let path := request.imagePath
  let size := 2 * bench.assembly.words.length
  Report.upon (bench.writeImage path) [⟨.info, s!"wrote {size} bytes to {path}"⟩]

/-- Write the listing, if it is asked for. -/
def storeListing
    (request : Request)
    (bench : Workbench) : m Report :=
  match request.listing with
  | none => return {}
  | some path =>
      let place := Path.normalize path
      Report.upon (bench.writeListing path)
        [⟨.info, s!"wrote listing to {place}"⟩, ⟨.output, s!"Wrote listing to {place}"⟩]

/-- Write the symbol file, if it is asked for. -/
def storeSymbols
    (request : Request)
    (bench : Workbench) : m Report :=
  match request.symbols with
  | none => return {}
  | some path =>
      let place := Path.normalize path
      Report.upon (bench.writeSymbols path)
        [⟨.info, s!"wrote symbols to {place}"⟩, ⟨.output, s!"Wrote symbols to {place}"⟩]

/-- The closing report on an assembled program. -/
def summary
    (request : Request)
    (assembly : Assembly) : List Event :=
  let path := request.imagePath
  let words := assembly.words.length
  let bytes := 2 * words
  let constants := assembly.constants.length
  let labels := assembly.labels.entries.length
  [⟨.output, s!"Wrote {words} words ({bytes} bytes) to {path}"⟩,
    ⟨.output, s!"Defined {constants} constants, {labels} labels"⟩]

/-- Write everything that is asked for. -/
def store
    (request : Request)
    (bench : Workbench) : m Report :=
  Report.andThen (request.storeImage bench) <|
    Report.andThen (request.storeListing bench) <|
      Report.andThen (request.storeSymbols bench) <|
        return { events := request.summary bench.assembly }

/-- The reports up to the end of the assembly. -/
def opening
    (request : Request)
    (source : Except Failure String) : List Event :=
  let path := Path.normalize request.input
  let begun : List Event := [⟨.output, s!"Assembling {path}..."⟩, ⟨.info, s!"assembling {path}"⟩]
  match source with
  | .error _ => begun
  | .ok source => begun ++ Progress.ofSource request.settings source path

/-- Assemble the input and write everything that is asked for. -/
def perform (request : Request) : m Report := do
  let source ← Files.readText request.input
  let bench : Workbench := { settings := request.settings }
  let (result, bench) := bench.assembleText request.input source
  let events := request.opening source
  match result with
  | .error failure => return { events, failure := some failure }
  | .ok _ => Report.andThen (return { events }) (request.store bench)

end Request

/-- The end of a command: its exit code, and what it prints of its report. -/
def Report.outcome
    (report : Report)
    (verbose : Bool) : Outcome :=
  let events := if verbose then report.events else []
  let output := String.join (events.filterMap (·.outputLine?))
  let log := String.join (events.filterMap (·.logLine?))
  match report.failure with
  | none => .ended successCode output log
  | some failure =>
      let fault := blame failure
      .ended fault.code output (log ++ fault.report (some "Assembly") failure.text)

/-- Carry out a request. A path with a null character ends it without a word. -/
def Request.execute (request : Request) : m Outcome := do
  if request.paths.any Path.hasNull then return .ended abortCode "" ""
  else if ← request.isAcceptable then
    let report ← request.perform
    return report.outcome request.verbose
  else return .misuse

/-- What the command prints about its version. -/
def versionText : String :=
  "vm16asm, version 1.0.0\n"

/-- How the command is called. -/
def usageLine : String :=
  "Usage: vm16asm [OPTIONS] INPUT_FILE\n"

/-- What a misused command prints in front of the reason. -/
def misuseText : String :=
  usageLine ++ "Try 'vm16asm --help' for help.\n"

/-- What the help says about the command. -/
def description : List String := [
    "Assemble VM16 source code.",
    "",
    "INPUT_FILE is the assembly source file (.asm) to assemble.",
    "",
    "The output is a stream of little-endian 16-bit words with no header, ready",
    "to be loaded at address 0 by the VM16 virtual machine.",
    "",
    "Examples:",
    "    vm16asm hello.asm              # Outputs hello.bin",
    "    vm16asm hello.asm -o out.bin   # Specify output file",
    "    vm16asm -s hello.sym hello.asm # Also write the symbol table"]

/-- The options, and what the help says about each. -/
def optionRows : List (String × String) := [
    ("-o, --output FILE", "Output binary file (default: input.bin)"),
    ("-l, --listing FILE", "Generate listing file"),
    ("-s, --symbols FILE", "Generate symbol file"),
    ("--entry TEXT", "Name of the required entry point label  [default: main]"),
    ("-v, --verbose", "Verbose output"),
    ("--version", "Show the version and exit."),
    ("--help", "Show this message and exit.")]

/-- What the command prints about its use, for lines of eighty characters. -/
def helpText : String :=
  let indented (line : String) : String := if line.isEmpty then "\n" else "  " ++ line ++ "\n"
  let option (row : String × String) : String := indented (Text.padRight 20 row.1 ++ row.2)
  usageLine ++ "\n" ++ String.join (description.map indented) ++
    "\nOptions:\n" ++ String.join (optionRows.map option)

/-- Carry out what a command line asks for. -/
def Plan.execute : Plan → m Outcome
  | .misuse => return .misuse
  | .version => return .ended successCode versionText ""
  | .help => return .ended successCode helpText ""
  | .assemble request => request.execute

/-- Run a command line. -/
def run (words : List String) : m Outcome :=
  (Plan.ofWords words).execute

end Command
end WordAsm
