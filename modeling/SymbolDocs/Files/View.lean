import SymbolDocs.Path
set_option autoImplicit false

/-!
# What can be seen of files

## Main definitions

* `FileFault` — why a file operation fails.
* `FileView` — what a store can see of the files: a working directory, which paths are files, and
  their contents.
* `FileView.readText` — the text of a file.

## Design

A view is the files at one moment. Whoever reads files is given a view each time, so that files may
change between two readings in any way.
-/

namespace SymbolDocs

/-- Why a file operation fails. -/
inductive FileFault where
  /-- There is no such file. -/
  | notFound
  /-- The path cannot name a file. -/
  | invalidPath
  /-- The bytes are not a text. -/
  | notText
  /-- The path names a directory. -/
  | isDirectory
  /-- A part of the path is not a directory. -/
  | notDirectory
  deriving DecidableEq, Repr

/-- What can be seen of the files at one moment. -/
structure FileView where
  /-- The working directory, as an absolute path. -/
  workingDirectory : Path
  /-- Whether a path names a file. -/
  isFile : Path → Bool
  /-- The bytes of the file that a path names. -/
  read : Path → Except FileFault (List UInt8)

/-- The text of a file. -/
def FileView.readText (files : FileView) (path : Path) : Except FileFault Text := do
  let bytes ← files.read path
  match Text.Utf8.decode bytes with
  | .ok text => .ok text
  | .error _ => .error .notText

end SymbolDocs
