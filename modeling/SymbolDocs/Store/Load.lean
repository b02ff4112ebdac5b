import SymbolDocs.Store.Basic
import SymbolDocs.Files.View
set_option autoImplicit false

/-!
# Loading documentation

A source is a text under a label, or a file under the text of its absolute path. It is taken in as a
whole or not at all, and a source taken in is not read again.

## Main definitions

* `LoadError` — why a source cannot be loaded.
* `Store.fileKey?` — the key of a file.
* `Store.loadText` — a text under a label.
* `Store.loadFile` — a file.
* `Store.ownerSource?` — the path of the documentation file beside a compiled unit.
* `Store.loadForOwner` — that file.
* `Store.isLoaded` — whether a source has been taken in.

## Main results

* `Store.ownerSource?_eq_none_iff` — where no path has the extension of the settings.
* `Store.loadForOwner_cases` — the three ways in which a unit is looked for.

## Design

Each loading gives an outcome together with the store that it leaves behind, also when it fails.
Nothing is written before the whole source has been scanned.

Keys are texts, although paths need not be. Two files whose absolute paths have one text, with
replacements for what is not UTF-8, are one source.

The file beside a unit is a help: without it the unit is undocumented. A unit is looked for once,
unless the looking failed. Where the settings have an extension with a slash there is no path to
look at. The call then panics, which is given here as an outcome of its own.
-/

namespace SymbolDocs

/-- Why a source cannot be loaded. -/
inductive LoadError where
  /-- The path names no file. -/
  | missingSource (path : Path)
  /-- The file is not a text. -/
  | notText (key : Text) (fault : Text.Utf8.Fault)
  /-- The text cannot be scanned. -/
  | notScannable (key : Text) (fault : Markup.SyntaxFault)
  /-- The file cannot be read. -/
  | file (fault : FileFault)
  /-- No path has the extension of the settings. The call does not return: it panics. -/
  | badExtension (extension : Text)
  deriving DecidableEq, Repr

namespace LoadError

/-- The wording of why bytes are not a text. -/
def utf8Reason (fault : Text.Utf8.Fault) : Text :=
  match fault.length with
  | none => "incomplete utf-8 byte sequence from index ".toList ++ Text.ofNat fault.index
  | some length =>
    "invalid utf-8 sequence of ".toList ++ Text.ofNat length ++ " bytes from index ".toList ++
      Text.ofNat fault.index

/-- The wording for a malformed source. -/
def malformed (key : Text) (line : Nat) (reason : Text) : Text :=
  "malformed documentation source ".toList ++ key ++ " (line ".toList ++ Text.ofNat line ++
    "): ".toList ++ reason

/-- The wording of an error; a file fault is worded by the system, and a panic has none. -/
def message? : LoadError → Option Text
  | .missingSource path => some ("documentation source not found: ".toList ++ path.text)
  | .notText key fault =>
    some (malformed key (Text.lineFeeds fault.before + 1)
      ("not valid UTF-8: ".toList ++ utf8Reason fault))
  | .notScannable key fault => some (malformed key fault.line fault.reason.message)
  | .file _ => none
  | .badExtension _ => none

/-- Whether an error says that a source is malformed. -/
def isMalformed : LoadError → Bool
  | .notText _ _ => true
  | .notScannable _ _ => true
  | _ => false

end LoadError

/-- The outcome of a loading and the store it leaves behind. -/
abbrev Loading := Except LoadError Unit × Store

namespace Store

/-- The key of a file: the text of its absolute path. The empty path has none. -/
def fileKey? (workingDirectory path : Path) : Option Text :=
  (Path.absolute? workingDirectory path).map Path.text

/-- The key of a file, or what is wrong with the path. -/
def fileKey (files : FileView) (path : Path) : Except LoadError Text :=
  match fileKey? files.workingDirectory path with
  | some key => .ok key
  | none => .error (.file .invalidPath)

/-- The store with a source taken in: its members inserted and its key remembered. -/
def takeIn (store : Store) (key : Text) (blocks : List Markup.MemberBlock) : Store :=
  let filled := store.insertAll blocks
  { filled with sources := key :: filled.sources, parses := filled.parses + 1 }

/-- The loading of a text under a key that has not been taken in. -/
def ingest (store : Store) (key text : Text) : Loading :=
  match Markup.scan store.settings.memberElement text with
  | .ok blocks => (.ok (), store.takeIn key blocks)
  | .error fault => (.error (.notScannable key fault), store)

/-- The loading of a text under a label. -/
def loadText (store : Store) (label text : Text) : Loading :=
  if store.sources.contains label then (.ok (), store) else store.ingest label text

/-- The text of a file that has not been taken in. -/
def readSource (files : FileView) (key : Text) (path : Path) : Except LoadError Text :=
  if files.isFile path then
    match files.read path with
    | .error fault => .error (.file fault)
    | .ok bytes =>
      match Text.Utf8.decode bytes with
      | .error fault => .error (.notText key fault)
      | .ok text => .ok text
  else .error (.missingSource path)

/-- The loading of a file. A file taken in before is not looked at. -/
def loadFile (store : Store) (files : FileView) (path : Path) : Loading :=
  match fileKey files path with
  | .error error => (.error error, store)
  | .ok key =>
    if store.sources.contains key then (.ok (), store)
    else
      match readSource files key path with
      | .error error => (.error error, store)
      | .ok text => store.ingest key text

/-- The path of the documentation file beside a compiled unit, if its extension is that of any
path. -/
def ownerSource? (settings : StoreSettings) (owner : Path) : Option Path :=
  Path.withExtension? settings.extension owner

/-- The store that remembers a unit for which documentation has been looked for. -/
def attempt (store : Store) (owner : Path) : Store :=
  { store with attempted := Path.components owner :: store.attempted }

/-- The loading of the documentation at a path beside a unit that has not been looked for. Unless
the settings are strict, malformed documentation counts as none. -/
def loadBeside (store : Store) (files : FileView) (owner source : Path) : Loading :=
  if files.isFile source then
    match store.loadFile files source with
    | (.ok (), loaded) => (.ok (), loaded.attempt owner)
    | (.error error, left) =>
      if error.isMalformed && !store.settings.strictOwners then (.ok (), left.attempt owner)
      else (.error error, left)
  else (.ok (), store.attempt owner)

/-- The loading of the documentation beside a unit. -/
def loadForOwner (store : Store) (files : FileView) (owner : Path) : Loading :=
  if store.attempted.contains (Path.components owner) then (.ok (), store)
  else
    match ownerSource? store.settings owner with
    | some source => store.loadBeside files owner source
    | none => (.error (.badExtension store.settings.extension), store)

/-- Whether a source has been taken in, under a label or as a file. -/
def isLoaded (store : Store) (files : FileView) (source : Text) : Bool :=
  store.sources.contains source ||
    match fileKey? files.workingDirectory (Path.ofText source) with
    | some key => store.sources.contains key
    | none => false

/-! ### Units -/

/-- **No path has an extension with a slash**, and every other extension is that of a path beside
each unit. -/
theorem ownerSource?_eq_none_iff {settings : StoreSettings} {owner : Path} :
    ownerSource? settings owner = none ↔ '/' ∈ settings.extension := by
  rw [ownerSource?, Path.withExtension?]
  split <;> simp_all

/-- A unit that has been looked for is not looked for again. -/
theorem loadForOwner_of_mem {store : Store} {owner : Path}
    (h : Path.components owner ∈ store.attempted) (files : FileView) :
    store.loadForOwner files owner = (.ok (), store) := by
  have hcontains : store.attempted.contains (Path.components owner) = true := by simpa using h
  rw [loadForOwner, if_pos hcontains]

/-- A unit that has not been looked for has the documentation at the path beside it, if any. -/
theorem loadForOwner_of_new {store : Store} {owner : Path}
    (h : Path.components owner ∉ store.attempted) (files : FileView) :
    store.loadForOwner files owner =
      match ownerSource? store.settings owner with
      | some source => store.loadBeside files owner source
      | none => (.error (.badExtension store.settings.extension), store) := by
  have hcontains : ¬ store.attempted.contains (Path.components owner) = true := by simpa using h
  rw [loadForOwner, if_neg hcontains]

/-- A unit that has not been looked for has the documentation at the path beside it. -/
theorem loadForOwner_eq_loadBeside {store : Store} {owner source : Path}
    (h : Path.components owner ∉ store.attempted)
    (hsource : ownerSource? store.settings owner = some source) (files : FileView) :
    store.loadForOwner files owner = store.loadBeside files owner source := by
  rw [loadForOwner_of_new h, hsource]

/-- **The three ways in which a unit is looked for**: it has been before, or no path has the
extension of the settings, or the documentation is at the path beside it. -/
theorem loadForOwner_cases (store : Store) (files : FileView) (owner : Path) :
    Path.components owner ∈ store.attempted ∧ store.loadForOwner files owner = (.ok (), store) ∨
    Path.components owner ∉ store.attempted ∧ ownerSource? store.settings owner = none ∧
      store.loadForOwner files owner =
        (.error (.badExtension store.settings.extension), store) ∨
    Path.components owner ∉ store.attempted ∧
      ∃ source, ownerSource? store.settings owner = some source ∧
        store.loadForOwner files owner = store.loadBeside files owner source := by
  by_cases hold : Path.components owner ∈ store.attempted
  · exact .inl ⟨hold, loadForOwner_of_mem hold files⟩
  · rw [loadForOwner_of_new hold]
    cases hsource : ownerSource? store.settings owner with
    | none => exact .inr (.inl ⟨hold, rfl, rfl⟩)
    | some source => exact .inr (.inr ⟨hold, source, rfl, rfl⟩)

end Store

end SymbolDocs
