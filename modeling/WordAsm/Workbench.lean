import WordAsm.Assembly
import WordAsm.Files

/-!
# Workbenches

A workbench assembles one program after the other and keeps the results of the last one. The
results go when the tokens of a new program are at hand, so a source that cannot be read
leaves them as they were, and a program that fails later leaves none.
-/

namespace WordAsm

/-- Settings, and the results of the last program. -/
structure Workbench where
  settings : Settings := {}
  assembly : Assembly := {}
  deriving DecidableEq

namespace Workbench

/-- Put the results of a new program, or none if it failed, in place of the old ones. -/
def replace
    (bench : Workbench) : Except Failure Assembly → Except Failure (List Int) × Workbench
  | .ok assembly => (.ok assembly.words, { bench with assembly })
  | .error failure => (.error failure, { bench with assembly := {} })

/-- Assemble tokens. -/
def assembleTokens
    (bench : Workbench)
    (tokens : List Token) : Except Failure (List Int) × Workbench :=
  bench.replace (Assembly.ofTokens bench.settings tokens)

/-- Assemble a source text. -/
def assembleSource
    (bench : Workbench)
    (source : String)
    (file : String := "<input>") : Except Failure (List Int) × Workbench :=
  match Token.ofSource source file with
  | .error failure => (.error failure, bench)
  | .ok tokens =>
      bench.replace ((Assembly.ofTokens bench.settings tokens).map (·.withSource source))

/-- Assemble the text that was read from a file. -/
def assembleText
    (bench : Workbench)
    (path : String) : Except Failure String → Except Failure (List Int) × Workbench
  | .error failure => (.error failure, bench)
  | .ok source => bench.assembleSource source (Path.normalize path)

variable {m : Type → Type} [Monad m] [Files m]

/-- Assemble a file. -/
def assembleFile
    (bench : Workbench)
    (path : String) : m (Except Failure (List Int) × Workbench) := do
  let source ← Files.readText path
  return bench.assembleText path source

/-- Write the program as bytes. Nothing is written if a word does not fit. -/
def writeImage
    (bench : Workbench)
    (path : String) : m (Except Failure Unit) :=
  match bench.assembly.image with
  | .ok bytes => Files.writeBytes path bytes
  | .error failure => return .error failure

/-- Write the listing. -/
def writeListing
    (bench : Workbench)
    (path : String) : m (Except Failure Unit) :=
  Files.writeText path bench.assembly.listing

/-- Write the symbol file. -/
def writeSymbols
    (bench : Workbench)
    (path : String) : m (Except Failure Unit) :=
  Files.writeText path bench.assembly.symbolFile

end Workbench
end WordAsm
