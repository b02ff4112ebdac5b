import SymbolDocs.Files.Tree
import SymbolDocs.Proofs.Store.Atomicity
import SymbolDocs.Proofs.Store.Log
import SymbolDocs.Proofs.Outcome
set_option autoImplicit false

/-!
# Documentation beside a unit

To look for the documentation of a unit is to load the file beside it as far as there is one, and to
remember the unit. What may go wrong with the file counts as no documentation, except where the
settings are strict and the file is malformed.

## Main definitions

* `FileView.Readable` — files that can be read.
* `Store.HasNothing` — there is nothing to load at a path.
* `Store.Offers` — a file offers the members of a source that has not been taken in.

## Main results

* `FileTree.readable_view` — a tree of files can be read.
* `Store.malformed_of_readable` — what is neither nothing nor a source is malformed.
* `Store.loadForOwner_ne_missingSource` — the file beside a unit is never reported missing.
* `Store.loadForOwner_loads_beside` — looking for the documentation of a unit is loading the file
  beside it.
* `Store.slashedExtension_panics` — an extension with a slash, for which there is no such file.

## Design

A path has nothing to load, or offers a source, or is malformed: these three cases are said by the
files and by what the store has taken in, without loading anything.

An extension is a piece of a file name. Where the one of the settings holds a slash, no path is
beside any unit, and there are no such cases.
-/

namespace SymbolDocs

/-! ### What is at a path -/

/-- Files that can be read: every path that names a file does, and the empty path names none. -/
structure FileView.Readable (files : FileView) : Prop where
  /-- What is a file can be read. -/
  read_of_isFile : ∀ path, files.isFile path = true → ∃ bytes, files.read path = .ok bytes
  /-- The empty path names no file. -/
  not_isFile_nil : files.isFile [] = false

/-- **A tree of files can be read.** -/
theorem FileTree.readable_view (tree : FileTree) : tree.view.Readable where
  read_of_isFile path h := by
    cases hread : tree.read path with
    | ok bytes => exact ⟨bytes, hread⟩
    | error fault =>
      have hfile : (tree.read path).isOk = true := h
      rw [hread] at hfile
      exact absurd hfile Bool.false_ne_true
  not_isFile_nil := rfl

/-- A path with the text of a file names a file. -/
theorem FileView.isFile_of_sourceText? {files : FileView} {path : Path} {text : Text}
    (h : files.sourceText? path = some text) : files.isFile path = true := by
  rw [FileView.sourceText?] at h
  by_contra hfile
  rw [if_neg hfile] at h
  exact absurd h (by simp)

namespace Store

/-- There is nothing to load at a path: it names no file, or one that has been taken in. -/
def HasNothing (store : Store) (files : FileView) (path : Path) : Prop :=
  files.isFile path = false ∨
    ∃ key ∈ store.sources, fileKey? files.workingDirectory path = some key

/-- The file that a path names offers some members: it has not been taken in, and holds a text that
is scanned into them. -/
structure Offers (store : Store) (files : FileView) (path : Path) (key : Text)
    (members : List Markup.MemberBlock) : Prop where
  /-- The key of the file. -/
  key_eq : fileKey? files.workingDirectory path = some key
  /-- The file has not been taken in. -/
  is_new : key ∉ store.sources
  /-- The text of the file is scanned into the members. -/
  scanned : ∃ text, files.sourceText? path = some text ∧
    Markup.scan store.settings.memberElement text = .ok members

variable {store : Store} {files : FileView} {owner source path : Path} {key : Text}
  {members : List Markup.MemberBlock}

/-- Only the empty path has no key. -/
theorem fileKey?_eq_none_iff (workingDirectory : Path) :
    fileKey? workingDirectory path = none ↔ path = [] := by
  rw [fileKey?, Option.map_eq_none_iff, Path.absolute?]
  split <;> simp_all

/-- A path with a text that can be scanned offers its members, unless they have been taken in. -/
theorem hasNothing_or_offers {text : Text} (hfiles : files.Readable)
    (htext : files.sourceText? path = some text)
    (hscan : Markup.scan store.settings.memberElement text = .ok members) :
    (∃ key ∈ store.sources, fileKey? files.workingDirectory path = some key) ∨
      ∃ key, store.Offers files path key members := by
  have hfile := FileView.isFile_of_sourceText? htext
  cases hkey : fileKey? files.workingDirectory path with
  | none =>
    rw [(fileKey?_eq_none_iff _).mp hkey, hfiles.not_isFile_nil] at hfile
    exact absurd hfile Bool.false_ne_true
  | some key =>
    by_cases hold : key ∈ store.sources
    · exact .inl ⟨key, hold, rfl⟩
    · exact .inr ⟨key, hkey, hold, text, htext, hscan⟩

/-- **What is neither nothing nor a source is malformed**, where the files can be read. -/
theorem malformed_of_readable (hfiles : files.Readable) (hsome : ¬ store.HasNothing files path)
    (hsource : ¬ ∃ key members, store.Offers files path key members) :
    store.Malformed files path := by
  obtain ⟨hfile, htaken⟩ := not_or.mp hsome
  rw [Bool.not_eq_false] at hfile
  obtain ⟨bytes, hread⟩ := hfiles.read_of_isFile path hfile
  have hpath : path ≠ [] := by
    rintro rfl
    rw [hfiles.not_isFile_nil] at hfile
    exact Bool.false_ne_true hfile
  obtain ⟨key, hkey⟩ := Option.ne_none_iff_exists'.mp
    (mt (fileKey?_eq_none_iff files.workingDirectory).mp hpath)
  have hnew : key ∉ store.sources := fun hold => htaken ⟨key, hold, hkey⟩
  refine ⟨hfile, key, bytes, hkey, hnew, hread, fun text htext => ?_⟩
  cases hscan : Markup.scan store.settings.memberElement text with
  | error fault => exact ⟨fault, rfl⟩
  | ok members =>
    refine absurd ⟨key, members, hkey, hnew, text, ?_, hscan⟩ hsource
    simp [FileView.sourceText?, hfile, hread, htext, Except.toOption]

/-! ### Loading a file -/

/-- A file taken in before is loaded without being looked at. -/
theorem loadFile_of_taken (hold : key ∈ store.sources)
    (hkey : fileKey? files.workingDirectory path = some key) :
    store.loadFile files path = (.ok (), store) := by
  have hcontains : store.sources.contains key = true := by simpa using hold
  rw [loadFile, fileKey, hkey]
  exact if_pos hcontains

/-- **A file that offers members is taken in.** -/
theorem Offers.loadFile_eq (h : store.Offers files path key members) :
    store.loadFile files path = (.ok (), store.takeIn key members) := by
  obtain ⟨text, htext, hscan⟩ := h.scanned
  have hcontains : ¬ store.sources.contains key = true := by simpa using h.is_new
  rw [loadFile, fileKey, h.key_eq]
  simp only [hcontains, Log.readSource_eq_ok_iff.mpr htext, ingest, hscan]
  rfl

/-- A file with a text that can be scanned is loaded, whether its members are new or not. -/
theorem exists_loadFile_eq_ok {text : Text} (hfiles : files.Readable)
    (htext : files.sourceText? path = some text)
    (hscan : Markup.scan store.settings.memberElement text = .ok members) :
    ∃ loaded, store.loadFile files path = (.ok (), loaded) := by
  rcases hasNothing_or_offers hfiles htext hscan with ⟨key, hold, hkey⟩ | ⟨key, hoffers⟩
  · exact ⟨store, loadFile_of_taken hold hkey⟩
  · exact ⟨_, hoffers.loadFile_eq⟩

/-- A file that is one is not reported missing. -/
theorem loadFile_ne_missingSource (store : Store) (hfile : files.isFile path = true)
    (other : Path) :
    (store.loadFile files path).1 ≠ .error (.missingSource other) := by
  rw [loadFile, fileKey]
  cases fileKey? files.workingDirectory path with
  | none => simp
  | some key =>
    simp only [readSource, hfile, if_true]
    split
    · simp
    · cases files.read path with
      | error fault => simp
      | ok bytes =>
        cases hdecode : Text.Utf8.decode bytes with
        | error fault => simp [hdecode]
        | ok text =>
          simp only [hdecode, ingest]
          split <;> simp

/-! ### Looking for the documentation of a unit -/

/-- Where there is nothing to load, a unit is remembered. -/
theorem loadForOwner_of_hasNothing (hnew : Path.components owner ∉ store.attempted)
    (hsource : ownerSource? store.settings owner = some source)
    (h : store.HasNothing files source) :
    store.loadForOwner files owner = (.ok (), store.attempt owner) := by
  rw [loadForOwner_eq_loadBeside hnew hsource, loadBeside]
  rcases h with hfile | ⟨key, hold, hkey⟩
  · simp [hfile]
  · simp only [loadFile_of_taken hold hkey]
    split <;> rfl

/-- **Where the file beside a unit is loaded, the unit is remembered** on top. -/
theorem loadForOwner_of_loadFile_ok {loaded : Store}
    (hnew : Path.components owner ∉ store.attempted)
    (hsource : ownerSource? store.settings owner = some source)
    (hfile : files.isFile source = true)
    (hload : store.loadFile files source = (.ok (), loaded)) :
    store.loadForOwner files owner = (.ok (), loaded.attempt owner) := by
  rw [loadForOwner_eq_loadBeside hnew hsource, loadBeside, if_pos hfile, hload]

/-- A strict store reports malformed documentation, and does not remember the unit. -/
theorem loadForOwner_of_malformed_strict {error : LoadError}
    (hstrict : store.settings.strictOwners = true)
    (hnew : Path.components owner ∉ store.attempted)
    (hsource : ownerSource? store.settings owner = some source)
    (hfile : files.isFile source = true)
    (hload : store.loadFile files source = (.error error, store)) :
    store.loadForOwner files owner = (.error error, store) := by
  rw [loadForOwner_eq_loadBeside hnew hsource, loadBeside]
  simp [hfile, hload, hstrict]

/-- **Malformed documentation is reported where the settings are strict**, and otherwise counts as
none. -/
theorem loadForOwner_of_malformed_eq (hnew : Path.components owner ∉ store.attempted)
    (hsource : ownerSource? store.settings owner = some source)
    (h : store.Malformed files source) :
    ∃ error, error.isMalformed = true ∧ store.loadFile files source = (.error error, store) ∧
      store.loadForOwner files owner =
        if store.settings.strictOwners then (.error error, store)
        else (.ok (), store.attempt owner) := by
  obtain ⟨error, hload, herror⟩ := loadFile_of_malformed h
  refine ⟨error, herror, hload, ?_⟩
  split
  · next hstrict => exact loadForOwner_of_malformed_strict hstrict hnew hsource h.1 hload
  · next hlenient =>
    exact loadForOwner_of_malformed (Bool.eq_false_iff.mpr hlenient) hnew hsource h

/-- Where the file beside a unit is loaded, a symbol is documented as it is after the loading. -/
theorem documentationForOwner_of_loadFile_ok {loaded : Store}
    (hnew : Path.components owner ∉ store.attempted)
    (hsource : ownerSource? store.settings owner = some source)
    (hfile : files.isFile source = true)
    (hload : store.loadFile files source = (.ok (), loaded)) (symbol : Symbol) :
    (store.documentationForOwner files owner symbol).1 =
      (loaded.documentation symbol).mapError .identifier := by
  rw [documentationForOwner, loadForOwner_of_loadFile_ok hnew hsource hfile hload]
  rfl

/-- Where no path has the extension of the settings, the call panics and changes nothing. -/
theorem loadForOwner_of_slash (hnew : Path.components owner ∉ store.attempted)
    (h : '/' ∈ store.settings.extension) :
    store.loadForOwner files owner =
      (.error (.badExtension store.settings.extension), store) := by
  rw [loadForOwner_of_new hnew, ownerSource?_eq_none_iff.mpr h]

/-- A file beside a unit is not reported missing. -/
theorem loadBeside_ne_missingSource (store : Store) (files : FileView)
    (owner source other : Path) :
    (store.loadBeside files owner source).1 ≠ .error (.missingSource other) := by
  rw [loadBeside]
  split
  · next hfile =>
    have hmissing := loadFile_ne_missingSource store hfile other
    split
    · simp
    · next hload =>
      rw [hload] at hmissing
      split
      · simp
      · exact hmissing
  · simp

/-- **The file beside a unit is never reported missing.** -/
theorem loadForOwner_ne_missingSource (store : Store) (files : FileView) (owner other : Path) :
    (store.loadForOwner files owner).1 ≠ .error (.missingSource other) := by
  rcases loadForOwner_cases store files owner with
    ⟨-, heq⟩ | ⟨-, -, heq⟩ | ⟨-, source, -, heq⟩
  · simp [heq]
  · simp [heq]
  · rw [heq]
    exact loadBeside_ne_missingSource store files owner source other

/-- **Looking for the documentation of a unit is loading the file beside it**, as far as there is
one. Let the files be such that they can be read, and let the unit not have been looked for. There
is a path beside the unit unless the extension of the settings holds a slash; then the call panics,
and the store stays as it was. Otherwise:

* Where there is nothing to load, the unit is remembered and nothing else happens.
* Where the file offers members, they are taken in as by the loading of the file, and the unit is
  remembered.
* Otherwise the loading of the file says that it is malformed. This is the outcome where the
  settings are strict, and the store stays as it was. Where they are not, the unit is remembered and
  nothing else happens.

The file is never reported missing. Where it holds a text that can be scanned, a symbol is
documented as it is after the loading of the file.

**Proof sketch.** A file that can be read and has not been taken in is scanned into members or
malformed. In each case the loading of the file is known, and the unit is remembered on top of it
unless an error is reported. -/
theorem loadForOwner_loads_beside {store : Store} {files : FileView} {owner : Path}
    (hfiles : files.Readable) (hnew : Path.components owner ∉ store.attempted) :
    ((∃ source, ownerSource? store.settings owner = some source) ↔
      '/' ∉ store.settings.extension) ∧
    ('/' ∈ store.settings.extension →
      store.loadForOwner files owner =
        (.error (.badExtension store.settings.extension), store)) ∧
    ∀ source, ownerSource? store.settings owner = some source →
      (store.HasNothing files source →
        store.loadForOwner files owner = (.ok (), store.attempt owner)) ∧
      (∀ key members, store.Offers files source key members →
        store.loadFile files source = (.ok (), store.takeIn key members) ∧
        store.loadForOwner files owner = (.ok (), (store.takeIn key members).attempt owner)) ∧
      (¬ store.HasNothing files source →
        (¬ ∃ key members, store.Offers files source key members) →
          ∃ error, error.isMalformed = true ∧
            store.loadFile files source = (.error error, store) ∧
            store.loadForOwner files owner =
              if store.settings.strictOwners then (.error error, store)
              else (.ok (), store.attempt owner)) ∧
      (∀ path, (store.loadForOwner files owner).1 ≠ .error (.missingSource path)) ∧
      ∀ symbol text members, files.sourceText? source = some text →
        Markup.scan store.settings.memberElement text = .ok members →
          ∃ loaded, store.loadFile files source = (.ok (), loaded) ∧
            (store.documentationForOwner files owner symbol).1 =
              (loaded.documentation symbol).mapError .identifier := by
  refine ⟨?_, loadForOwner_of_slash hnew, fun source hsource => ⟨?_, ?_, ?_, ?_, ?_⟩⟩
  · rw [← Option.ne_none_iff_exists', ne_eq, ownerSource?_eq_none_iff]
  · exact loadForOwner_of_hasNothing hnew hsource
  · intro key members hoffers
    obtain ⟨text, htext, -⟩ := hoffers.scanned
    exact ⟨hoffers.loadFile_eq, loadForOwner_of_loadFile_ok hnew hsource
      (FileView.isFile_of_sourceText? htext) hoffers.loadFile_eq⟩
  · intro hsome hnone
    exact loadForOwner_of_malformed_eq hnew hsource (malformed_of_readable hfiles hsome hnone)
  · exact loadForOwner_ne_missingSource store files owner
  · intro symbol text members htext hscan
    obtain ⟨loaded, hload⟩ := exists_loadFile_eq_ok hfiles htext hscan
    exact ⟨loaded, hload, documentationForOwner_of_loadFile_ok hnew hsource
      (FileView.isFile_of_sourceText? htext) hload symbol⟩

/-- Beside `Good.dll` stands a file with a member, beside `Bad.dll` one with an end tag too many,
and beside any other unit none. -/
def goodAndBadFiles : FileTree where
  workingPlace := [Path.ofText "work".toList]
  directories := [[Path.ofText "work".toList]]
  contents :=
    [([Path.ofText "work".toList, Path.ofText "Good.xml".toList],
      Text.Utf8.encode "<member name='T:A'/>".toList),
    ([Path.ofText "work".toList, Path.ofText "Bad.xml".toList], Text.Utf8.encode "</a>".toList)]

set_option maxRecDepth 4000 in
/-- A new strict store remembers a unit without documentation, takes in a member beside a unit,
which then documents a type, and reports a malformed file. -/
theorem loadForOwner_goodAndBadFiles :
    let store := empty { strictOwners := true }
    let files := goodAndBadFiles.view
    let good := Path.ofText "Good.dll".toList
    store.loadForOwner files (Path.ofText "None.dll".toList) =
        (.ok (), store.attempt (Path.ofText "None.dll".toList)) ∧
      store.loadForOwner files good =
        (.ok (), (store.takeIn "/work/Good.xml".toList [⟨"T:A".toList, []⟩]).attempt good) ∧
      (store.documentationForOwner files good (.type (.plain [] ['A']))).1 = .ok (some []) ∧
      ∃ error, error.isMalformed = true ∧
        store.loadForOwner files (Path.ofText "Bad.dll".toList) = (.error error, store) := by
  intro store files good
  have hload := fun owner => (@loadForOwner_loads_beside store files owner
    goodAndBadFiles.readable_view List.not_mem_nil).2.2
  obtain ⟨hnone, -⟩ :=
    hload (Path.ofText "None.dll".toList) (Path.ofText "None.xml".toList) rfl
  obtain ⟨-, hgood, -, -, hdocumentation⟩ := hload good (Path.ofText "Good.xml".toList) rfl
  obtain ⟨-, -, hbad, -⟩ :=
    hload (Path.ofText "Bad.dll".toList) (Path.ofText "Bad.xml".toList) rfl
  obtain ⟨htaken, hloaded⟩ := hgood "/work/Good.xml".toList [⟨"T:A".toList, []⟩]
    ⟨rfl, List.not_mem_nil, "<member name='T:A'/>".toList, rfl, rfl⟩
  refine ⟨hnone (.inl rfl), hloaded, ?_, ?_⟩
  · obtain ⟨loaded, hfile, hsymbol⟩ := hdocumentation (.type (.plain [] ['A']))
      "<member name='T:A'/>".toList _ rfl rfl
    obtain rfl : store.takeIn "/work/Good.xml".toList [⟨"T:A".toList, []⟩] = loaded :=
      congrArg Prod.snd (htaken.symm.trans hfile)
    exact hsymbol.trans rfl
  · have hsome : ¬ store.HasNothing files (Path.ofText "Bad.xml".toList) := by
      rintro (hfile | ⟨key, hkey, -⟩)
      · exact absurd hfile (by decide)
      · exact List.not_mem_nil hkey
    have hsource : ¬ ∃ key members,
        store.Offers files (Path.ofText "Bad.xml".toList) key members := by
      rintro ⟨key, members, -, -, text, htext, hscan⟩
      obtain rfl : "</a>".toList = text := Option.some.inj htext
      exact absurd hscan nofun
    obtain ⟨error, herror, -, hreported⟩ := hbad hsome hsource
    exact ⟨error, herror, hreported⟩

set_option maxRecDepth 4000 in
/-- With the extension `doc/xml`, looking for the documentation of a unit neither succeeds nor says
that a file is malformed, and the unit is not remembered, although the files can be read and there
is nothing beside the unit. -/
theorem slashedExtension_panics :
    let settings : StoreSettings := { extension := "doc/xml".toList }
    let outcome := (empty settings).loadForOwner goodAndBadFiles.view (Path.ofText "A.dll".toList)
    Reachable settings (empty settings) ∧ goodAndBadFiles.view.Readable ∧
      Path.components (Path.ofText "A.dll".toList) ∉ (empty settings).attempted ∧
      ownerSource? settings (Path.ofText "A.dll".toList) = none ∧
      outcome.1 = .error (.badExtension "doc/xml".toList) ∧
      (∀ error, outcome.1 = .error error → error.isMalformed = false) ∧
      outcome.2.attempted = [] := by
  intro settings outcome
  have houtcome : outcome.1 = .error (.badExtension "doc/xml".toList) := rfl
  refine ⟨⟨[], rfl⟩, goodAndBadFiles.readable_view, List.not_mem_nil, rfl, houtcome, ?_, rfl⟩
  intro error herror
  rw [houtcome] at herror
  obtain rfl := Except.error.inj herror
  rfl

end Store

end SymbolDocs
