import SymbolDocs.Files.View
set_option autoImplicit false

/-!
# A tree of files

Directories and files held in memory, with a working directory.

## Main definitions

* `FileTree` — the directories and the files with their bytes.
* `FileTree.write`, `FileTree.makeDirectory`, `FileTree.remove` — changes.
* `FileTree.view` — what can be seen of the tree.

## Design

A place in the tree is the list of the names on the way from the root. A path is resolved name by
name: every name but the last must lead to a directory, as must the last where a slash or `.`
follows.
-/

namespace SymbolDocs

/-- The names on the way from the root. -/
abbrev Place := List Path

/-- Directories and files. The root is always a directory. -/
structure FileTree where
  /-- The working directory. -/
  workingPlace : Place
  /-- The directories apart from the root. -/
  directories : List Place := []
  /-- The files with their bytes. -/
  contents : List (Place × List UInt8) := []
  deriving DecidableEq, Repr

namespace FileTree

/-- The places on the way that some segments lead from a place. -/
def way (place : Place) : List Path → List Place
  | [] => []
  | segment :: rest =>
    if segment = [] || segment = [Path.dot] then way place rest
    else if segment = [Path.dot, Path.dot] then way place.dropLast rest
    else (place ++ [segment]) :: way (place ++ [segment]) rest

/-- The tree that holds nothing but an empty working directory and those around it. -/
def empty (workingPlace : Place) : FileTree :=
  { workingPlace, directories := way [] workingPlace }

/-- Whether a place is a directory. -/
def isDirectory (tree : FileTree) (place : Place) : Bool :=
  place = [] || tree.directories.contains place

/-- The bytes of the file at a place. -/
def file? (tree : FileTree) (place : Place) : Option (List UInt8) :=
  tree.contents.lookup place

/-- The path of the working directory. -/
def workingPath (tree : FileTree) : Path :=
  tree.workingPlace.flatMap fun name => Path.slash :: name

/-! ### Resolution -/

/-- Why nothing can be found below a place. -/
def blocked (tree : FileTree) (place : Place) : FileFault :=
  if (tree.file? place).isSome then .notDirectory else .notFound

/-- The place some segments lead to from another place. -/
def follow (tree : FileTree) (place : Place) : List Path → Except FileFault Place
  | [] => .ok place
  | segment :: rest =>
    if segment = [] && !rest.isEmpty then follow tree place rest
    else if !tree.isDirectory place then .error (tree.blocked place)
    else if segment = [] || segment = [Path.dot] then follow tree place rest
    else if segment = [Path.dot, Path.dot] then follow tree place.dropLast rest
    else follow tree (place ++ [segment]) rest

/-- The place a path leads to. -/
def resolve (tree : FileTree) (path : Path) : Except FileFault Place :=
  if path = [] then .error .notFound
  else if path.contains 0 then .error .invalidPath
  else follow tree (if Path.isAbsolute path then [] else tree.workingPlace) (Path.segments path)

/-! ### Views and changes -/

/-- The bytes of the file a path names. -/
def read (tree : FileTree) (path : Path) : Except FileFault (List UInt8) := do
  let place ← tree.resolve path
  match tree.file? place with
  | some bytes => .ok bytes
  | none => if tree.isDirectory place then .error .isDirectory else .error .notFound

/-- What can be seen of the tree. -/
def view (tree : FileTree) : FileView :=
  { workingDirectory := tree.workingPath
    isFile := fun path => (tree.read path).isOk
    read := tree.read }

/-- The tree with some places made directories. -/
def addDirectories (tree : FileTree) (places : List Place) : FileTree :=
  { tree with
    directories := tree.directories ++ places.filter fun place => !tree.isDirectory place }

/-- The tree with the directory a path names, and those on the way, made. -/
def makeDirectory (tree : FileTree) (path : Path) : Except FileFault FileTree :=
  if path.contains 0 then .error .invalidPath
  else
    let start := if Path.isAbsolute path then [] else tree.workingPlace
    let places := way start (Path.segments path)
    if places.any fun place => (tree.file? place).isSome then .error .notDirectory
    else .ok (tree.addDirectories places)

/-- The tree with a file written, after the directories on the way have been made. -/
def write (tree : FileTree) (path : Path) (bytes : List UInt8) : Except FileFault FileTree := do
  let parent := (path.reverse.dropWhile (· ≠ Path.slash)).reverse
  let tree ← if parent = [] then .ok tree else tree.makeDirectory parent
  let place ← tree.resolve path
  if tree.isDirectory place then .error .isDirectory
  else .ok { tree with
    contents := (place, bytes) :: tree.contents.filter fun entry => entry.1 ≠ place }

/-- The tree with a file removed. -/
def remove (tree : FileTree) (path : Path) : Except FileFault FileTree := do
  let place ← tree.resolve path
  match tree.file? place with
  | some _ => .ok { tree with contents := tree.contents.filter fun entry => entry.1 ≠ place }
  | none => if tree.isDirectory place then .error .isDirectory else .error .notFound

end FileTree

end SymbolDocs
