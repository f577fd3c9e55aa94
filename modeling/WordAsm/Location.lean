/-!
# Places in a source

A place names a file, a line and, where it is known, a column. Lines and columns count from
one; column zero says that the column is unknown.
-/

namespace WordAsm

/-- A place in a source file. -/
structure Location where
  file : String := "<input>"
  line : Int
  column : Int := 0
  deriving DecidableEq

/-- A place as messages show it: file and line, and the column where it is known. -/
def Location.text (location : Location) : String :=
  let file := location.file
  let line := location.line
  let column := location.column
  if 0 < column then s!"{file}:{line}:{column}" else s!"{file}:{line}"

end WordAsm
