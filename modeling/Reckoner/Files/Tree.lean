import Reckoner.Text.Utf8

/-!
# A tree of files

The part of a file system that settings and logs touch: directories and files by path.

* `FileTree` — the directories and files, and the directory that relative paths begin in.
* `FileTree.locate` — where a path leads to.  Every name on the way is looked up, also `.` and
  `..`, so each but the last has to lead to a directory.
* `FileTree.read`, `FileTree.createDirectories`, `FileTree.openEmpty`, `FileTree.append` — the
  operations, with the errors that a caller is told.
-/

namespace Reckoner

/-- Why an operation on a path fails. -/
inductive FileError where
  /-- Nothing is there. -/
  | notFound
  /-- Something is there already. -/
  | alreadyExists
  /-- A file stands where a directory is needed. -/
  | notDirectory
  /-- A directory stands where a file is needed. -/
  | isDirectory
  /-- The path, or a name on it, is too long. -/
  | nameTooLong
  /-- The path holds a null character. -/
  | nullInName
  /-- The file does not hold text. -/
  | notText
  deriving DecidableEq, Repr

/-- The error in words, with its number where it has one. -/
def FileError.message : FileError → String
  | notFound => "No such file or directory (os error 2)"
  | alreadyExists => "File exists (os error 17)"
  | notDirectory => "Not a directory (os error 20)"
  | isDirectory => "Is a directory (os error 21)"
  | nameTooLong => "File name too long (os error 36)"
  | nullInName => "file name contained an unexpected NUL byte"
  | notText => "stream did not contain valid UTF-8"

/-- What stands at a place of a tree. -/
inductive FileNode where
  /-- A directory: the place of the one above it, and the places of what is in it by name. -/
  | directory (above : Nat) (entries : List (String × Nat))
  /-- A file and its content. -/
  | file (content : Bytes)
  deriving DecidableEq

/-- Directories and files. -/
structure FileTree where
  /-- What stands at each place; at place 0, the root. -/
  nodes : Array FileNode
  /-- The place that relative paths begin at. -/
  here : Nat
  deriving DecidableEq

namespace FileTree

/-! ### Places -/

/-- The root alone, which is above itself. -/
def empty : FileTree := ⟨#[.directory 0 []], 0⟩

/-- What stands at a place. -/
def node? (t : FileTree) (place : Nat) : Option FileNode := t.nodes[place]?

/-- A directory stands at the place. -/
def isDirectory (t : FileTree) (place : Nat) : Bool :=
  match t.node? place with
  | some (.directory ..) => true
  | _ => false

/-- The tree with something else at a place. -/
def replace (t : FileTree) (place : Nat) (node : FileNode) : FileTree :=
  { t with nodes := t.nodes.setIfInBounds place node }

/-- A directory with one more entry. -/
def withEntry (name : String) (place : Nat) : FileNode → FileNode
  | .directory above entries => .directory above ((name, place) :: entries)
  | .file content => .file content

/-- The tree with something new in the directory at a place. -/
def add (t : FileTree) (place : Nat) (name : String) (node : FileNode) : FileTree :=
  { t with nodes := (t.nodes.modify place (withEntry name t.nodes.size)).push node }

/-! ### Paths -/

/-- How many bytes a name may have. -/
def longestName : Nat := 255

/-- How many bytes a path may have. -/
def longestPath : Nat := 4095

/-- The names on a path; slashes in a row count as one. -/
def names (path : String) : List String := (path.splitOn "/").filter fun name => name ≠ ""

/-- The place that a name leads to from a place. -/
def enter (t : FileTree) (place : Nat) (name : String) : Except FileError Nat :=
  match t.node? place with
  | none => .error .notFound
  | some (.file _) => .error .notDirectory
  | some (.directory above entries) =>
    if name = "." then .ok place
    else if name = ".." then .ok above
    else if longestName < name.utf8ByteSize then .error .nameTooLong
    else match entries.lookup name with
      | some found => .ok found
      | none => .error .notFound

/-- The place that a path begins at. -/
def start (t : FileTree) (path : String) : Except FileError Nat :=
  if path.toList.contains '\x00' then .error .nullInName
  else if path.isEmpty then .error .notFound
  else if longestPath < path.utf8ByteSize then .error .nameTooLong
  else .ok (if path.startsWith "/" then 0 else t.here)

/-- The place that a path leads to.  A slash at the end says that it is that of a directory. -/
def locate (t : FileTree) (path : String) : Except FileError Nat := do
  let place ← (names path).foldlM t.enter (← t.start path)
  if path.endsWith "/" && !t.isDirectory place then .error .notDirectory else .ok place

/-- The directory that holds what a path leads to, and its name there.  The root has no name, and
    `.` and `..` are not names of their own. -/
def locateLast (t : FileTree) (path : String) : Except FileError (Nat × Option String) := do
  let place ← (names path).dropLast.foldlM t.enter (← t.start path)
  if !t.isDirectory place then .error .notDirectory
  else .ok (place, (names path).getLast?.filter fun name => name ≠ "." && name ≠ "..")

/-- A path and the paths above it, the nearest first, from its pieces between slashes, the last
    first.  A piece that leads nowhere makes no level, unless it is all there is. -/
def levels : List String → List String
  | [] => []
  | piece :: above =>
    if piece = "" || (piece = "." && !above.isEmpty) then levels above
    else "/".intercalate (piece :: above).reverse :: levels above

/-- The paths above a path, the nearest first. -/
def above (path : String) : List String := (levels (path.splitOn "/").reverse).tail

/-! ### Reading -/

/-- Something is at the path. -/
def hasNode (t : FileTree) (path : String) : Bool := (t.locate path).isOk

/-- A directory is at the path. -/
def hasDirectory (t : FileTree) (path : String) : Bool :=
  match t.locate path with
  | .ok place => t.isDirectory place
  | .error _ => false

/-- The bytes of a file. -/
def read (t : FileTree) (path : String) : Except FileError Bytes := do
  match t.node? (← t.locate path) with
  | none => .error .notFound
  | some (.directory ..) => .error .isDirectory
  | some (.file content) => .ok content

/-- The text of a file. -/
def readText (t : FileTree) (path : String) : Except FileError String := do
  match decodeStrict (← t.read path) with
  | some s => .ok s
  | none => .error .notText

/-! ### Making directories -/

/-- Makes one directory. -/
def createDirectory (t : FileTree) (path : String) : Except FileError FileTree := do
  match ← t.locateLast path with
  | (_, none) => .error .alreadyExists
  | (place, some name) =>
    match t.enter place name with
    | .ok _ => .error .alreadyExists
    | .error .notFound => .ok (t.add place name (.directory place []))
    | .error e => .error e

/-- Makes a directory, unless there is one. -/
def ensureDirectory (t : FileTree) (path : String) : Except FileError FileTree :=
  match t.createDirectory path with
  | .ok t => .ok t
  | .error e => if t.hasDirectory path then .ok t else .error e

/-- Makes the first of some directories, and of those that follow as many as it needs. -/
def createLevels (t : FileTree) : List String → Except FileError FileTree
  | [] => .ok t
  | path :: above =>
    match t.createDirectory path with
    | .error .notFound => do (← createLevels t above).ensureDirectory path
    | _ => t.ensureDirectory path

/-- Makes a directory and those above it, as far as they are missing. -/
def createDirectories (t : FileTree) (path : String) : Except FileError FileTree :=
  t.createLevels (levels (path.splitOn "/").reverse)

/-- Makes the directories above a path, as far as they are missing. -/
def createAbove (t : FileTree) (path : String) : Except FileError FileTree :=
  t.createLevels (above path)

/-! ### Writing -/

/-- Opens a file for writing from its start, making it if it is missing. -/
def openEmpty (t : FileTree) (path : String) : Except FileError FileTree := do
  match ← t.locateLast path with
  | (_, none) => .error .isDirectory
  | (place, some name) =>
    if path.endsWith "/" then .error .isDirectory
    else match t.enter place name with
      | .ok found =>
        if t.isDirectory found then .error .isDirectory else .ok (t.replace found (.file []))
      | .error .notFound => .ok (t.add place name (.file []))
      | .error e => .error e

/-- Puts bytes at the end of a file. -/
def append (t : FileTree) (path : String) (bytes : Bytes) : FileTree :=
  match t.locate path with
  | .error _ => t
  | .ok place =>
    match t.node? place with
    | some (.file content) => t.replace place (.file (content ++ bytes))
    | _ => t

/-! ### Trees to begin with -/

/-- Nothing but a directory and those above it, seen from there. -/
def emptyAt (path : String) : Except FileError FileTree := do
  let t ← empty.createDirectories path
  return { t with here := ← t.locate path }

/-- The tree with a file and the directories above it. -/
def withFile (t : FileTree) (path : String) (content : Bytes) : Except FileError FileTree := do
  let t ← (← t.createAbove path).openEmpty path
  return t.append path content

end FileTree

end Reckoner
