import ModifierFacts.CommandLine.Storage

/-!
# A tree of files

`FileTree` is a storage whose files are all known: what stands at which place, and from which folder
relative paths start.

* `Path.ofText` takes the text of a path apart.
* `FileTree.walk` follows names from folder to folder; every name on the way has to be a folder, so
  `a/../b` needs `a` to be one.
* `FileTree.locate` is the place that a path means, whether or not something stands there.
* `FileTree.storage` answers for reading and creating, `FileTree.write` is the tree after a file has
  been written.
-/

namespace ModifierFacts

/-! ## 1. Paths -/

/-- A place: the names that lead to it from the root on. -/
abbrev Place := List String

/-- The text of a path, taken apart. -/
structure Path where
  /-- Does it start at the root? -/
  absolute : Bool
  /-- The names between the slashes, also `.` and `..`. -/
  names : List String
  /-- Does it end in a slash? Then it can mean a folder only. -/
  folder : Bool
  deriving DecidableEq, Repr

namespace Path

/-- Takes the text of a path apart. Slashes that stand together count as one. -/
def ofText (text : String) : Path where
  absolute := text.startsWith "/"
  names := (text.splitOn "/").filter (· != "")
  folder := text.endsWith "/"

/-- The names that lead to the folder of the last one. -/
def way (path : Path) : List String := path.names.dropLast

/-- The name of the file that can be created at this path. A slash at the end, or a last name that
goes back to a folder, leaves none. -/
def newName? (path : Path) : Option String :=
  if path.folder then none else path.names.getLast?.filter fun name => name != "." && name != ".."

/-- The bytes of the longest name. -/
def maxName : Nat := 255

/-- The bytes of the longest path. -/
def maxPath : Nat := 4095

end Path

/-! ## 2. Places -/

/-- Files at their places. -/
structure FileTree where
  /-- What is listed; the folders around it are there without being listed. -/
  files : List (Place × File)
  /-- The folder from which relative paths start. -/
  home : Place := []
  deriving DecidableEq, Repr

namespace FileTree

/-- What stands at a place. -/
def find? (tree : FileTree) (place : Place) : Option File :=
  match tree.files.lookup place with
  | some file => some file
  | none =>
    if place.isPrefixOf tree.home || tree.files.any (place.isPrefixOf ·.1) then some .directory
    else none

/-- The place that a name means in a folder. -/
def child (folder : Place) (name : String) : Except FileError Place :=
  if name = "." then .ok folder
  else if name = ".." then .ok folder.dropLast
  else if Path.maxName < name.utf8ByteSize then .error .nameTooLong
  else .ok (folder ++ [name])

/-- Goes into the folder of this name. -/
def enter (tree : FileTree) (folder : Place) (name : String) : Except FileError Place := do
  let place ← child folder name
  match tree.find? place with
  | some .directory => return place
  | some (.bytes _) => throw .notDirectory
  | none => throw .notFound

/-- Follows names from folder to folder. -/
def walk (tree : FileTree) (start : Place) (names : List String) : Except FileError Place :=
  names.foldlM tree.enter start

/-- The folder in which the last name of a path is looked up. -/
def folderOf (tree : FileTree) (path : Path) : Except FileError Place :=
  tree.walk (if path.absolute then [] else tree.home) path.way

/-- The place that a path means. -/
def locate (tree : FileTree) (path : Path) : Except FileError Place := do
  let folder ← tree.folderOf path
  match path.names.getLast? with
  | none => return folder
  | some name => child folder name

/-! ## 3. Reading and writing -/

/-- What stands at a path. -/
def find (tree : FileTree) (path : Path) : Except FileError File := do
  match tree.find? (← tree.locate path), path.folder with
  | none, _ => throw .notFound
  | some (.bytes _), true => throw .notDirectory
  | some file, _ => return file

/-- Can a file be created or emptied at this path? Its folder must be there. -/
def create (tree : FileTree) (path : Path) : Except FileError Unit := do
  let folder ← tree.folderOf path
  match path.newName? with
  | none => throw .isDirectory
  | some name =>
    match tree.find? (← child folder name) with
    | some .directory => throw .isDirectory
    | _ => return ()

/-- The path in a text, unless that is too long for one. -/
def path (text : String) : Except FileError Path :=
  if Path.maxPath < text.utf8ByteSize then .error .nameTooLong else .ok (.ofText text)

/-- The storage of these files. -/
def storage (tree : FileTree) : Storage where
  read text := do (← tree.find (← path text)).text
  create text := do tree.create (← path text)

/-- The tree after a file with this content has been written at a path. -/
def write (tree : FileTree) (text : String) (content : List UInt8) : FileTree :=
  match tree.locate (.ofText text) with
  | .ok place => { tree with files := (place, .bytes content) :: tree.files }
  | .error _ => tree

end FileTree

end ModifierFacts
