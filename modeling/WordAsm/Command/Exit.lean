import WordAsm.Failure
import WordAsm.Text.Plain

/-!
# Exit codes

How a command ends: the exit code, and the text that says why it failed. What is to blame for
a failure decides both.
-/

namespace WordAsm
namespace Command

/-- What is to blame for a failure. -/
inductive Blame
  | program
  | usage
  | files
  | command
  deriving DecidableEq

/-- The exit code of a command that succeeds. -/
def successCode : Nat :=
  0

/-- The exit code of a command that cannot even look its paths up. -/
def abortCode : Nat :=
  1

namespace Blame

/-- The exit code of a failure. -/
def code : Blame → Nat
  | .program => 1
  | .usage => 2
  | .files => 2
  | .command => 3

/-- The words that head the text of a failure. Faults of a program are headed by the kind of
work that found them, where it is named. -/
def heading
    (blame : Blame)
    (work : Option String) : String :=
  match blame with
  | .program =>
      let work := work.getD ""
      if work.isEmpty then "Error: " else work ++ " error: "
  | .usage | .files => "Error: "
  | .command => "Internal error: "

/-- The text of a failure on the error stream, as plain text. -/
def report
    (blame : Blame)
    (work : Option String)
    (text : String) : String :=
  Text.plain (blame.heading work ++ text) ++ "\n"

end Blame

/-- What is to blame for a failure of an assembly. -/
def blame : Failure → Blame
  | .program _ => .program
  | .file .notFound _ | .file .denied _ | .file .isADirectory _ => .files
  | .file .notADirectory _ | .file .nameTooLong _ | .file .nullCharacter _ | .longNumeral _
  | .longNumber | .noRegister _ | .noCharacter _ | .notText _ => .command

end Command
end WordAsm
