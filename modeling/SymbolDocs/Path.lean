import SymbolDocs.Text.Utf8
set_option autoImplicit false

/-!
# Paths

A path is any bytes, in parts that are separated by slashes. Repeated slashes count as one, and a
part `.` means nothing except at the start of a relative path.

## Main definitions

* `Path.ofText`, `Path.text` — the path that a text spells, and the text of a path.
* `Path.parts` — the parts of a path that name something.
* `Path.components` — the parts with the root or the leading `.`: what two spellings of a path have
  in common.
* `Path.join` — a path below another.
* `Path.absolute?` — the absolute form of a path.
* `Path.split?`, `Path.splitName` — a path taken apart at its file name, and a file name at its
  extension.
* `Path.withExtension?` — the path with another extension.

## Design

A path need not be UTF-8. Its text has replacements for what is not, so that two paths may have one
text.

Neither components nor the absolute form resolve `..`, which only the file system can. The absolute
form keeps a final slash, since only a directory can be meant with it.

An extension holds no slash, as it is a piece of a file name. There is no path with any other
extension.
-/

namespace SymbolDocs

/-- A path is the list of its bytes. -/
abbrev Path := List UInt8

namespace Path

/-- The byte that separates the parts of a path. -/
abbrev slash : UInt8 := 0x2F

/-- The byte that separates stem and extension. -/
abbrev dot : UInt8 := 0x2E

/-- The path that a text spells. -/
def ofText (text : Text) : Path :=
  Text.Utf8.encode text

/-- The text of a path, with replacements for what is not UTF-8. -/
def text (path : Path) : Text :=
  Text.Utf8.lossy path

/-! ### Parts -/

/-- The segments of a path between its slashes, some of which may be empty. -/
def segments : Path → List Path
  | [] => [[]]
  | byte :: path =>
    if byte = slash then [] :: segments path
    else
      match segments path with
      | [] => [[byte]]
      | segment :: rest => (byte :: segment) :: rest

/-- The parts of a path that name something: its segments without the empty ones and without `.`. -/
def parts (path : Path) : List Path :=
  (segments path).filter fun segment => segment ≠ [] && segment ≠ [dot]

/-- Whether a path begins at the root. -/
def isAbsolute (path : Path) : Bool :=
  path.head? = some slash

/-- The components of a path: the root or a leading `.`, and the parts. -/
def components (path : Path) : List Path :=
  (if isAbsolute path then [[slash]]
    else if (segments path).head? = some [dot] then [[dot]]
    else []) ++ parts path

/-! ### Joining and the absolute form -/

/-- A path below another. One slash stands between them unless the first is empty or ends with
one. -/
def join (path below : Path) : Path :=
  match path.getLast? with
  | none => below
  | some last => if last = slash then path ++ below else path ++ slash :: below

/-- A path that begins with exactly two slashes. -/
def IsDoubleRooted (path : Path) : Prop :=
  [slash, slash] <+: path ∧ ¬ [slash, slash, slash] <+: path

instance (path : Path) : Decidable (IsDoubleRooted path) :=
  inferInstanceAs (Decidable (_ ∧ _))

/-- Where the absolute form of a path begins: at the root, for which exactly two leading slashes are
kept, or at the working directory. -/
def base (workingDirectory path : Path) : Path :=
  if IsDoubleRooted path then [slash, slash]
  else if isAbsolute path then [slash]
  else workingDirectory

/-- The absolute form of a path; the empty path has none. -/
def absolute? (workingDirectory path : Path) : Option Path :=
  if path = [] then none
  else
    let named := (parts path).foldl join (base workingDirectory path)
    some (if path.getLast? = some slash then join named [] else named)

/-! ### File names -/

/-- A path in reverse without the slashes and the parts `.` it ends with. -/
def dropTrailing : Path → Path
  | [] => []
  | byte :: path =>
    if byte = slash ∨ byte = dot ∧ path.head? = some slash then dropTrailing path
    else byte :: path

/-- A path taken apart at its file name. -/
structure Split where
  /-- What stands before the file name. -/
  directory : Path
  /-- The file name. -/
  name : Path
  /-- Whether the file name ends the path. -/
  final : Bool
  deriving DecidableEq, Repr

/-- The path taken apart at its file name: the last part, unless that is missing or `..`. -/
def split? (path : Path) : Option Split :=
  let reversed := dropTrailing path.reverse
  let name := (reversed.takeWhile (· ≠ slash)).reverse
  if name = [] || name = [dot] || name = [dot, dot] then none
  else some {
    directory := (reversed.dropWhile (· ≠ slash)).reverse
    name
    final := reversed.length = path.length }

/-- The stem and the extension of a file name, which its last dot separates. A name without a dot,
or with its only dot in front, has no extension. -/
def splitName (name : Path) : Path × Option Path :=
  let reversed := name.reverse
  match reversed.dropWhile (· ≠ dot) with
  | [] => (name, none)
  | [_] => (name, none)
  | _ :: stem => (stem.reverse, some (reversed.takeWhile (· ≠ dot)).reverse)

/-- An extension behind its dot; nothing for the empty one. -/
def dotted (extension : Path) : Path :=
  if extension = [] then [] else dot :: extension

/-- The path with another extension in place of that of its file name; an empty extension leaves the
stem alone. A path without a file name stays. Where the stem is a single dot and the extension ends
the path, two dots remain, which name no file that could have an extension. -/
def replaceExtension (extension path : Path) : Path :=
  match split? path with
  | none => path
  | some split =>
    let (stem, ending) := splitName split.name
    if stem = [dot] && ending.isSome && split.final then split.directory ++ [dot, dot]
    else split.directory ++ stem ++ dotted extension

/-- The path with another extension; none where the extension holds a slash, whatever the path. -/
def withExtension? (extension : Text) (path : Path) : Option Path :=
  if '/' ∈ extension then none else some (replaceExtension (ofText extension) path)

end Path

end SymbolDocs
