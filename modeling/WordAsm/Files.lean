import WordAsm.Failure
import WordAsm.Path
import WordAsm.Text.Lines

/-!
# Access to files

What the assembler asks of a file store: what a path names, the bytes of a file, and to write
a file. Texts are stored in UTF-8, and reading one makes its line ends one.
-/

namespace WordAsm

/-- What a path may name. -/
inductive FileKind
  | file
  | folder
  deriving DecidableEq

/-- A file store. Paths are taken as they are written; `kind?` gives nothing where a path
cannot be followed. -/
class Files (m : Type → Type) where
  kind? : String → m (Option FileKind)
  read : String → m (Except FileFault (List UInt8))
  write : String → List UInt8 → m (Except FileFault Unit)

namespace Files

/-- The text in the bytes of a file. -/
def textOf (bytes : List UInt8) : Except Failure String :=
  match Text.Utf8.decode bytes with
  | .ok text => .ok (String.ofList (Text.unifyLineEnds text))
  | .error fault => .error (.notText fault)

variable {m : Type → Type} [Monad m] [Files m]

/-- Read a text file; failures name the path in its written form. -/
def readText (path : String) : m (Except Failure String) := do
  let place := Path.normalize path
  match ← Files.read place with
  | .ok bytes => return textOf bytes
  | .error fault => return .error (.file fault place)

/-- Write a file; failures name the path in its written form. -/
def writeBytes
    (path : String)
    (bytes : List UInt8) : m (Except Failure Unit) := do
  let place := Path.normalize path
  match ← Files.write place bytes with
  | .ok () => return .ok ()
  | .error fault => return .error (.file fault place)

/-- Write a text file. -/
def writeText
    (path : String)
    (text : String) : m (Except Failure Unit) :=
  writeBytes path (Text.Utf8.encode text)

end Files
end WordAsm
