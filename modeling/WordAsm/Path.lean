/-!
# Paths

The written form of a file path, and the path of a file beside another one. Repeated slashes
and single dots say nothing and are dropped; double dots stay, since a link may stand before
them.
-/

namespace WordAsm
namespace Path

/-- The slashes that a path keeps at its start: one for the root, or exactly two. -/
def root : List Char → String
  | ['/', '/'] => "//"
  | '/' :: '/' :: c :: _ => if c = '/' then "/" else "//"
  | '/' :: _ => "/"
  | _ => ""

/-- The steps from folder to folder that following a path takes; an empty one stays where it
is. -/
def steps (path : String) : List String :=
  (path.toList.splitOn '/').map String.ofList

/-- The components of a path that say something. -/
def components (path : String) : List String :=
  (steps path).filter fun part => part != "" && part != "."

/-- A path put together from its root and components; a path without any is the current
folder. -/
def ofParts
    (root : String)
    (parts : List String) : String :=
  if root.isEmpty && parts.isEmpty then "." else root ++ "/".intercalate parts

/-- The written form of a path. -/
def normalize (path : String) : String :=
  ofParts (root path.toList) (components path)

/-- A file name without its suffix. A dot at the start or at the end opens no suffix. -/
def stem (name : List Char) : List Char :=
  let suffix := name.reverse.takeWhile (· != '.')
  let before := name.length - suffix.length
  if suffix.isEmpty || before ≤ 1 then name else name.take (before - 1)

/-- The path of the file that has a suffix in place of the one of a given file. -/
def withSuffix
    (suffix : String)
    (path : String) : String :=
  let parts := components path
  let name := parts.getLastD ""
  ofParts (root path.toList)
    (parts.dropLast ++ [String.ofList (stem name.toList) ++ suffix])

/-- The greatest size of one name on a path, in bytes. -/
def nameLimit : Nat :=
  255

/-- The size in bytes that a whole path must stay below. -/
def sizeLimit : Nat :=
  4096

/-- Whether a path holds the null character, which no path may. -/
def hasNull (path : String) : Bool :=
  path.toList.contains '\x00'

/-- Whether a path starts at the root. -/
def isAbsolute (path : String) : Bool :=
  path.toList.head? == some '/'

end Path
end WordAsm
