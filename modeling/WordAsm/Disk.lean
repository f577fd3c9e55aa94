import WordAsm.Files

/-!
# Disks in memory

A file store as a value: folders and files by the names on the way to them from the root, and
a current folder from which relative paths start. The root is its own parent. Names and paths
have the limits of `Path`; a name is measured when the folder that would hold it is reached.
-/

namespace WordAsm

/-- A file store in memory. -/
structure Disk where
  files : List (List String × List UInt8) := []
  folders : List (List String) := []
  current : List String := []
  deriving DecidableEq

namespace Disk

/-- What stands at a place. -/
inductive Node
  | file (bytes : List UInt8)
  | folder
  | nothing
  deriving DecidableEq

/-- What stands at a place, given by the names on the way from the root. -/
def node
    (disk : Disk)
    (place : List String) : Node :=
  match disk.files.lookup place with
  | some bytes => .file bytes
  | none => if place.isEmpty || disk.folders.contains place then .folder else .nothing

/-- Take one step of a path. Only a folder can be entered or left. -/
def step
    (disk : Disk)
    (place : List String)
    (name : String) : Except FileFault (List String) :=
  match disk.node place with
  | .nothing => .error .notFound
  | .file _ => .error .notADirectory
  | .folder =>
      if name = "" ∨ name = "." then .ok place
      else if name = ".." then .ok place.dropLast
      else if Path.nameLimit < name.utf8ByteSize then .error .nameTooLong
      else .ok (place ++ [name])

/-- The place that a path leads to. -/
def follow
    (disk : Disk)
    (path : String) : Except FileFault (List String) :=
  if Path.hasNull path then .error .nullCharacter
  else if path.isEmpty then .error .notFound
  else if Path.sizeLimit ≤ path.utf8ByteSize then .error .nameTooLong
  else
    let start := if Path.isAbsolute path then [] else disk.current
    (Path.steps path).foldlM disk.step start

/-- What a path names. -/
def kind?
    (disk : Disk)
    (path : String) : Option FileKind :=
  match disk.follow path with
  | .error _ => none
  | .ok place =>
      match disk.node place with
      | .file _ => some .file
      | .folder => some .folder
      | .nothing => none

/-- The bytes of the file that a path names. -/
def read
    (disk : Disk)
    (path : String) : Except FileFault (List UInt8) := do
  let place ← disk.follow path
  match disk.node place with
  | .file bytes => .ok bytes
  | .folder => .error .isADirectory
  | .nothing => .error .notFound

/-- Put bytes under a place, in place of those that stand there. -/
def store
    (place : List String)
    (bytes : List UInt8) : List (List String × List UInt8) → List (List String × List UInt8)
  | [] => [(place, bytes)]
  | (other, old) :: rest =>
      if other = place then (other, bytes) :: rest else (other, old) :: store place bytes rest

/-- Write the file that a path names. -/
def write
    (disk : Disk)
    (path : String)
    (bytes : List UInt8) : Except FileFault Disk := do
  let place ← disk.follow path
  match disk.node place with
  | .folder => .error .isADirectory
  | .file _ | .nothing => .ok { disk with files := store place bytes disk.files }

/-- Every place on the way to a place, itself included, from the root on. -/
def ancestry : List String → List (List String)
  | [] => []
  | name :: rest => [name] :: (ancestry rest).map (name :: ·)

/-- Make a folder and all folders on the way to it. -/
def makeFolder
    (disk : Disk)
    (place : List String) : Disk :=
  let missing := (ancestry place).filter fun folder => !disk.folders.contains folder
  { disk with folders := disk.folders ++ missing }

/-- Put a file at a place and make the folders on the way to it. -/
def addFile
    (disk : Disk)
    (place : List String)
    (bytes : List UInt8) : Disk :=
  let disk := disk.makeFolder place.dropLast
  { disk with files := store place bytes disk.files }

/-- The files that are new or changed since an earlier state. -/
def changes
    (earlier later : Disk) : List (List String × List UInt8) :=
  later.files.filter fun (place, bytes) => earlier.files.lookup place != some bytes

end Disk

/-- Programs over a disk in memory. -/
abbrev DiskM := StateM Disk

instance : Files DiskM where
  kind? path := fun disk => (disk.kind? path, disk)
  read path := fun disk => (disk.read path, disk)
  write path bytes := fun disk =>
    match disk.write path bytes with
    | .ok disk => (.ok (), disk)
    | .error fault => (.error fault, disk)

end WordAsm
