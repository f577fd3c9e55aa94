import WordAsm.Command.Run

/-!
# The assembler command

Runs the command on the files of the machine.
-/

namespace WordAsm
namespace Shell

/-- The file fault that an error of the operating system reports. -/
def fileFault : IO.Error → FileFault
  | .noFileOrDirectory _ _ _ => .notFound
  | .inappropriateType _ code _ => if code == 20 then .notADirectory else .isADirectory
  | .invalidArgument _ code _ => if code == 36 then .nameTooLong else .denied
  | _ => .denied

/-- The result of an action on files. -/
def attempt {α : Type} (action : IO α) : IO (Except FileFault α) := do
  try
    return .ok (← action)
  catch error =>
    return .error (fileFault error)

/-- Read the first byte of a file. -/
def peek (path : String) : IO Unit := do
  let handle ← IO.FS.Handle.mk path .read
  discard (handle.read 1)

/-- What a path names; a folder can be opened but not read. -/
def kind? (path : String) : IO (Option FileKind) := do
  match ← attempt (peek path) with
  | .ok () | .error .denied => return some .file
  | .error .isADirectory => return some .folder
  | .error .notFound | .error .notADirectory | .error .nameTooLong
  | .error .nullCharacter => return none

/-- Read a file. -/
def readFile (path : String) : IO (Except FileFault (List UInt8)) :=
  attempt (return (← IO.FS.readBinFile path).toList)

/-- Write a file. -/
def writeFile (path : String) (bytes : List UInt8) : IO (Except FileFault Unit) :=
  attempt (IO.FS.writeBinFile path ⟨bytes.toArray⟩)

instance : Files IO where
  kind? := kind?
  read := readFile
  write := writeFile

end Shell
end WordAsm

/-- Run the assembler with the words of the command line. -/
def main (words : List String) : IO UInt32 := do
  match ← WordAsm.Command.run words with
  | .misuse =>
      (← IO.getStderr).putStr WordAsm.Command.misuseText
      return 2
  | .ended code output errors =>
      (← IO.getStdout).putStr output
      (← IO.getStderr).putStr errors
      return code.toUInt32
