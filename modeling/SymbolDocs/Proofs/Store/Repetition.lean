import SymbolDocs.Proofs.Store.Run
set_option autoImplicit false

/-!
# Repeated loadings

A source that has been loaded once is known until the store is cleared, whatever is asked of the
store in between and whatever becomes of the files. Loading it again succeeds and changes nothing.

## Main definitions

* `Path.plainForm?` — the absolute form of a path without any repeated slash.
* `Request.SameSource` — two loadings of one source.
* `Store.Knows` — a store that has nothing left to do for a loading.

## Main results

* `Path.absolute?_eq_map_plainForm?` — the absolute form is the plain one, up to a second slash in
  front.
* `Store.knows_of_serve_ok` — a store knows the source of a loading that has succeeded.
* `Store.extends_run` — a store keeps what it has taken in until it is cleared.
* `Store.serve_of_knows` — a known source is loaded again without a change.
* `Store.loading_idempotent` — loadings that succeed are idempotent, and a cleared store is new.
* `Store.doubleRooted_loaded_again` — a second slash in front of a path makes it another source.

## Design

A store knows a source by its key alone: no reading of a file is needed to tell that nothing is to
be done. This is why the files may have changed in any way.

A path that begins with exactly two slashes may be resolved in a manner of its own by the system,
and its absolute form keeps both. Two spellings of a path are therefore of one source only if both
begin so or neither does.
-/

namespace SymbolDocs

/-! ### Spellings of a path -/

namespace Path

/-- The absolute form of a path without any `.` and without any repeated slash, the leading ones
included. The empty path has none. -/
def plainForm? (workingDirectory path : Path) : Option Path :=
  if path = [] then none
  else
    let root := if isAbsolute path then [slash] else workingDirectory
    let named := (parts path).foldl join root
    some (if path.getLast? = some slash then join named [] else named)

/-- A byte in front of a path stays in front of what is below it. -/
theorem join_cons (byte : UInt8) {path : Path} (h : path ≠ []) (below : Path) :
    join (byte :: path) below = byte :: join path below := by
  obtain ⟨first, rest, rfl⟩ := List.exists_cons_of_ne_nil h
  rw [join, join, List.getLast?_cons_cons, List.getLast?_eq_some_getLast h]
  simp only
  split <;> rfl

/-- A path below another that is not empty is not empty. -/
theorem join_ne_nil {path : Path} (h : path ≠ []) (below : Path) : join path below ≠ [] := by
  rw [join, List.getLast?_eq_some_getLast h]
  simp only
  split <;> simp [h]

/-- A path below another one part after the other is not empty if that one is not. -/
theorem foldl_join_ne_nil {path : Path} (h : path ≠ []) (below : List Path) :
    below.foldl join path ≠ [] := by
  induction below generalizing path with
  | nil => exact h
  | cons part rest ih => exact ih (join_ne_nil h part)

/-- A byte in front of a path stays in front of all that is below it. -/
theorem foldl_join_cons (byte : UInt8) {path : Path} (h : path ≠ []) (below : List Path) :
    below.foldl join (byte :: path) = byte :: below.foldl join path := by
  induction below generalizing path with
  | nil => rfl
  | cons part rest ih =>
    rw [List.foldl_cons, join_cons byte h, ih (join_ne_nil h part), List.foldl_cons]

/-- **The absolute form is the plain one**, with one more slash in front when the path begins with
exactly two. -/
theorem absolute?_eq_map_plainForm? (workingDirectory path : Path) :
    absolute? workingDirectory path =
      (plainForm? workingDirectory path).map fun form =>
        if IsDoubleRooted path then slash :: form else form := by
  rw [absolute?, plainForm?, base]
  by_cases hempty : path = []
  · simp [hempty]
  by_cases hdouble : IsDoubleRooted path
  · have habsolute : isAbsolute path = true := by
      obtain ⟨rest, rfl⟩ := hdouble.1
      rfl
    have hroot : [slash] ≠ ([] : Path) := List.cons_ne_nil _ _
    have hnamed := foldl_join_ne_nil hroot (parts path)
    simp only [hempty, hdouble, habsolute, if_true, if_false, Option.map_some,
      foldl_join_cons slash hroot, join_cons slash hnamed]
    split <;> rfl
  · simp only [hempty, hdouble, if_false, Option.map_some]

/-- Two spellings of a path have one absolute form. -/
theorem absolute?_congr {workingDirectory path other : Path}
    (hform : plainForm? workingDirectory other = plainForm? workingDirectory path)
    (hroot : IsDoubleRooted other ↔ IsDoubleRooted path) :
    absolute? workingDirectory other = absolute? workingDirectory path := by
  rw [absolute?_eq_map_plainForm?, absolute?_eq_map_plainForm?, hform]
  simp only [hroot]

end Path

/-- Two loadings of one source, seen from a working directory: of files with the same plain form
that both begin with exactly two slashes or neither, of texts under the same label, or for units
with the same components. -/
inductive Request.SameSource (workingDirectory : Path) : Request → Request → Prop where
  /-- Two spellings of the path of a file. -/
  | loadFile {path other : Path}
      (same_form : Path.plainForm? workingDirectory other = Path.plainForm? workingDirectory path)
      (same_root : Path.IsDoubleRooted other ↔ Path.IsDoubleRooted path) :
      SameSource workingDirectory (.loadFile path) (.loadFile other)
  /-- One label, whatever the texts. -/
  | loadText {label text other : Text} :
      SameSource workingDirectory (.loadText label text) (.loadText label other)
  /-- Two spellings of the path of a unit. -/
  | loadForOwner {owner other : Path}
      (same_components : Path.components other = Path.components owner) :
      SameSource workingDirectory (.loadForOwner owner) (.loadForOwner other)

namespace Store

/-! ### What one request leaves -/

/-- A store under the settings of another one that has all its sources and units. -/
structure Extends (later earlier : Store) : Prop where
  /-- The settings stay. -/
  settings : later.settings = earlier.settings
  /-- The sources taken in are kept. -/
  sources : earlier.sources ⊆ later.sources
  /-- The units looked for are kept. -/
  attempted : earlier.attempted ⊆ later.attempted

/-- A store extends itself. -/
theorem Extends.refl (store : Store) : store.Extends store :=
  ⟨rfl, fun _ h => h, fun _ h => h⟩

/-- What extends an extension extends the store itself. -/
theorem Extends.trans {last later earlier : Store} (h₁ : last.Extends later)
    (h₂ : later.Extends earlier) : last.Extends earlier :=
  ⟨h₁.settings.trans h₂.settings, fun _ h => h₁.sources (h₂.sources h),
    fun _ h => h₁.attempted (h₂.attempted h)⟩

/-- Members that are inserted leave the sources and the units. -/
theorem extends_insertAll (store : Store) (members : List Markup.MemberBlock) :
    (store.insertAll members).Extends store := by
  induction members generalizing store with
  | nil => exact .refl store
  | cons member later ih =>
    have hfirst : (store.insert member).Extends store := ⟨rfl, fun _ h => h, fun _ h => h⟩
    exact (ih (store.insert member)).trans hfirst

/-- A store that takes in a source keeps the others. -/
theorem extends_takeIn (store : Store) (key : Text) (members : List Markup.MemberBlock) :
    (store.takeIn key members).Extends store := by
  have hinserted := extends_insertAll store members
  exact ⟨hinserted.settings, fun _ h => List.mem_cons_of_mem key (hinserted.sources h),
    hinserted.attempted⟩

/-- A store that looks for a unit keeps the others. -/
theorem extends_attempt (store : Store) (owner : Path) : (store.attempt owner).Extends store :=
  ⟨rfl, fun _ h => h, fun _ h => List.mem_cons_of_mem (Path.components owner) h⟩

/-- What a store makes of a new text extends it. -/
theorem extends_ingest (store : Store) (key text : Text) :
    (store.ingest key text).2.Extends store := by
  rw [ingest]
  cases Markup.scan store.settings.memberElement text with
  | ok members => exact extends_takeIn store key members
  | error fault => exact .refl store

/-- What a store makes of a text under a label extends it. -/
theorem extends_loadText (store : Store) (label text : Text) :
    (store.loadText label text).2.Extends store := by
  rw [loadText]
  split
  · exact .refl store
  · exact extends_ingest store label text

/-- What a store makes of a file extends it. -/
theorem extends_loadFile (store : Store) (files : FileView) (path : Path) :
    (store.loadFile files path).2.Extends store := by
  rw [loadFile]
  cases fileKey files path with
  | error error => exact .refl store
  | ok key =>
    simp only
    split
    · exact .refl store
    · cases readSource files key path with
      | error error => exact .refl store
      | ok text => exact extends_ingest store key text

/-- What a store makes of a file beside a unit extends it. -/
theorem extends_loadBeside (store : Store) (files : FileView) (owner source : Path) :
    (store.loadBeside files owner source).2.Extends store := by
  have hloaded := extends_loadFile store files source
  rw [loadBeside]
  split
  · cases hload : store.loadFile files source with
    | mk outcome left =>
      rw [hload] at hloaded
      cases outcome with
      | ok done => exact (extends_attempt left owner).trans hloaded
      | error error =>
        simp only
        split
        · exact (extends_attempt left owner).trans hloaded
        · exact hloaded
  · exact extends_attempt store owner

/-- What a store makes of a unit extends it. -/
theorem extends_loadForOwner (store : Store) (files : FileView) (owner : Path) :
    (store.loadForOwner files owner).2.Extends store := by
  rcases loadForOwner_cases store files owner with
    ⟨-, heq⟩ | ⟨-, -, heq⟩ | ⟨-, source, -, heq⟩
  · rw [heq]
    exact .refl store
  · rw [heq]
    exact .refl store
  · rw [heq]
    exact extends_loadBeside store files owner source

/-- **A store keeps what it has taken in and looked for**, unless it is cleared. -/
theorem extends_serve (store : Store) (files : FileView) {request : Request}
    (h : request ≠ .clear) : (store.serve files request).2.Extends store := by
  cases request with
  | loadFile path => exact extends_loadFile store files path
  | loadText label text => exact extends_loadText store label text
  | loadForOwner owner => exact extends_loadForOwner store files owner
  | clear => exact absurd rfl h
  | query query => exact .refl store

/-- **A store keeps over a history what it has taken in and looked for**, unless it is cleared. -/
theorem extends_run (store : Store) {history : List (FileView × Request)}
    (h : ∀ entry ∈ history, entry.2 ≠ .clear) : (store.run history).2.Extends store := by
  induction history generalizing store with
  | nil => exact .refl store
  | cons first later ih =>
    obtain ⟨files, request⟩ := first
    have hfirst := extends_serve store files (h _ List.mem_cons_self)
    have hlater := ih (store.serve files request).2
      fun entry hentry => h entry (List.mem_cons_of_mem _ hentry)
    rw [run_cons]
    exact hlater.trans hfirst

/-! ### Known sources -/

/-- A store has nothing left to do for a loading: the file or text has been taken in, or the unit
has been looked for. -/
def Knows (store : Store) (workingDirectory : Path) : Request → Prop
  | .loadFile path => ∃ key ∈ store.sources, fileKey? workingDirectory path = some key
  | .loadText label _ => label ∈ store.sources
  | .loadForOwner owner => Path.components owner ∈ store.attempted
  | .clear => False
  | .query _ => False

/-- An extension knows what the store knows. -/
theorem Extends.knows {later earlier : Store} (h : later.Extends earlier) {workingDirectory : Path}
    {request : Request} (hknows : earlier.Knows workingDirectory request) :
    later.Knows workingDirectory request := by
  cases request with
  | loadFile path =>
    obtain ⟨key, hkey, hfile⟩ := hknows
    exact ⟨key, h.sources hkey, hfile⟩
  | loadText label text => exact h.sources hknows
  | loadForOwner owner => exact h.attempted hknows
  | clear => exact hknows
  | query query => exact hknows

/-- Who knows a source knows it for every loading of it. -/
theorem Knows.of_sameSource {store : Store} {workingDirectory : Path} {request again : Request}
    (h : store.Knows workingDirectory request) (hsame : request.SameSource workingDirectory again) :
    store.Knows workingDirectory again := by
  cases hsame with
  | loadFile same_form same_root =>
    obtain ⟨key, hkey, hfile⟩ := h
    refine ⟨key, hkey, ?_⟩
    rw [fileKey?, Path.absolute?_congr same_form same_root]
    exact hfile
  | loadText => exact h
  | loadForOwner same_components =>
    rw [Knows, same_components]
    exact h

/-- A text that is taken in has its key among the sources. -/
theorem mem_sources_of_ingest_ok {store : Store} {key text : Text}
    (h : (store.ingest key text).1 = .ok ()) : key ∈ (store.ingest key text).2.sources := by
  rw [ingest] at h ⊢
  cases hscan : Markup.scan store.settings.memberElement text with
  | ok members => exact List.mem_cons_self
  | error fault => simp [hscan] at h

/-- A text that is loaded has its label among the sources. -/
theorem mem_sources_of_loadText_ok {store : Store} {label text : Text}
    (h : (store.loadText label text).1 = .ok ()) :
    label ∈ (store.loadText label text).2.sources := by
  rw [loadText] at h ⊢
  split
  · next hold => simpa using hold
  · next hnew =>
    rw [if_neg hnew] at h
    exact mem_sources_of_ingest_ok h

/-- A file that is loaded has its key among the sources. -/
theorem mem_sources_of_loadFile_ok {store : Store} {files : FileView} {path : Path}
    (h : (store.loadFile files path).1 = .ok ()) :
    ∃ key ∈ (store.loadFile files path).2.sources,
      fileKey? files.workingDirectory path = some key := by
  rw [loadFile, fileKey] at h ⊢
  cases hfile : fileKey? files.workingDirectory path with
  | none => simp [hfile] at h
  | some key =>
    simp only [hfile] at h ⊢
    refine ⟨key, ?_, rfl⟩
    split
    · next hold => simpa using hold
    · next hnew =>
      rw [if_neg hnew] at h
      cases hread : readSource files key path with
      | error error => simp [hread] at h
      | ok text =>
        simp only [hread] at h
        exact mem_sources_of_ingest_ok h

/-- A unit beside which a loading succeeds has been looked for. -/
theorem mem_attempted_of_loadBeside_ok {store : Store} {files : FileView} {owner source : Path}
    (h : (store.loadBeside files owner source).1 = .ok ()) :
    Path.components owner ∈ (store.loadBeside files owner source).2.attempted := by
  rw [loadBeside] at h ⊢
  split
  · next hfile =>
    rw [if_pos hfile] at h
    cases hload : store.loadFile files source with
    | mk outcome left =>
      cases outcome with
      | ok done => exact List.mem_cons_self
      | error error =>
        simp only [hload] at h ⊢
        split
        · exact List.mem_cons_self
        · next hstrict => simp [hstrict] at h
  · exact List.mem_cons_self

/-- A unit for which a loading succeeds has been looked for. -/
theorem mem_attempted_of_loadForOwner_ok {store : Store} {files : FileView} {owner : Path}
    (h : (store.loadForOwner files owner).1 = .ok ()) :
    Path.components owner ∈ (store.loadForOwner files owner).2.attempted := by
  rcases loadForOwner_cases store files owner with
    ⟨hold, heq⟩ | ⟨-, -, heq⟩ | ⟨-, source, -, heq⟩
  · rwa [heq]
  · rw [heq] at h
    exact nomatch h
  · rw [heq] at h ⊢
    exact mem_attempted_of_loadBeside_ok h

/-- **A store knows the source of a loading that has succeeded.** -/
theorem knows_of_serve_ok {store : Store} {files : FileView} {request : Request}
    (h : (store.serve files request).1 = .loaded (.ok ())) :
    (store.serve files request).2.Knows files.workingDirectory request := by
  cases request with
  | loadFile path => exact mem_sources_of_loadFile_ok (Response.loaded.inj h)
  | loadText label text => exact mem_sources_of_loadText_ok (Response.loaded.inj h)
  | loadForOwner owner => exact mem_attempted_of_loadForOwner_ok (Response.loaded.inj h)
  | clear => exact absurd h (by simp [serve])
  | query query => exact absurd h (by simp [serve])

/-- A text under a known label is not looked at. -/
theorem loadText_of_mem {store : Store} {label : Text} (h : label ∈ store.sources) (text : Text) :
    store.loadText label text = (.ok (), store) := by
  have hcontains : store.sources.contains label = true := by simpa using h
  rw [loadText, if_pos hcontains]

/-- A known file is not looked at. -/
theorem loadFile_of_mem {store : Store} {files : FileView} {path : Path} {key : Text}
    (hkey : fileKey? files.workingDirectory path = some key) (h : key ∈ store.sources) :
    store.loadFile files path = (.ok (), store) := by
  have hcontains : store.sources.contains key = true := by simpa using h
  rw [loadFile, fileKey, hkey]
  simp only [hcontains, if_true]

/-- **A known source is loaded again without a change**, whatever the files are. -/
theorem serve_of_knows {store : Store} {files : FileView} {request : Request}
    (h : store.Knows files.workingDirectory request) :
    store.serve files request = (.loaded (.ok ()), store) := by
  cases request with
  | loadFile path =>
    obtain ⟨key, hkey, hfile⟩ := h
    rw [serve, loadFile_of_mem hfile hkey]
  | loadText label text => rw [serve, loadText_of_mem h]
  | loadForOwner owner => rw [serve, loadForOwner_of_mem h]
  | clear => exact h.elim
  | query query => exact h.elim

/-! ### Runs -/

/-- A request leaves the settings. -/
theorem settings_serve (store : Store) (files : FileView) (request : Request) :
    (store.serve files request).2.settings = store.settings := by
  by_cases hclear : request = .clear
  · rw [hclear]
    rfl
  · exact (extends_serve store files hclear).settings

/-- A reachable store has the settings that it was created with. -/
theorem Reachable.settings_eq {settings : StoreSettings} {store : Store}
    (h : Reachable settings store) : store.settings = settings := by
  obtain ⟨history, rfl⟩ := h
  have hrun : ∀ store : Store, (store.run history).2.settings = store.settings := by
    induction history with
    | nil => exact fun store => rfl
    | cons first later ih =>
      intro store
      obtain ⟨files, request⟩ := first
      rw [run_cons, ih, settings_serve]
  exact hrun (empty settings)

/-- **Loadings that succeed are idempotent over whole runs, and a cleared store is new.** Once a
loading has succeeded, any loading of the same source succeeds and leaves the store as it is, after
any requests but a clearing and whatever the files are at each moment, as long as the working
directory is the same. After a clearing all that follows is served as by a new store.

**Proof sketch.** The loading leaves a store that knows its source. Each later request leaves an
extension of the store before it, which knows what that one knew, whatever the spelling. -/
theorem loading_idempotent {settings : StoreSettings} {store : Store}
    (hstore : Reachable settings store) :
    (∀ (files changed : FileView) (request again : Request)
      (history : List (FileView × Request)),
      (store.serve files request).1 = .loaded (.ok ()) →
      (∀ entry ∈ history, entry.2 ≠ .clear) →
      changed.workingDirectory = files.workingDirectory →
      request.SameSource files.workingDirectory again →
        let left := (store.run ((files, request) :: history)).2
        left.serve changed again = (.loaded (.ok ()), left)) ∧
    ∀ (files : FileView) (history : List (FileView × Request)),
      store.run ((files, .clear) :: history) =
        (.cleared :: ((empty settings).run history).1, ((empty settings).run history).2) := by
  refine ⟨fun files changed request again history hok hkept hdirectory hsame => ?_,
    fun files history => ?_⟩
  · have hknows := (extends_run _ hkept).knows (knows_of_serve_ok hok)
    have hagain := hknows.of_sameSource hsame
    rw [← hdirectory] at hagain
    exact serve_of_knows hagain
  · rw [run_cons, serve, clear, hstore.settings_eq]

/-- Files below a working directory that all hold the documentation of one member. -/
def documentedFiles : FileView where
  workingDirectory := Path.ofText "/work".toList
  isFile _ := true
  read _ := .ok ("<member name='A'>a</member>".toList.map fun c => c.toNat.toUInt8)

/-- The same working directory without any file. -/
def removedFiles : FileView where
  workingDirectory := Path.ofText "/work".toList
  isFile _ := false
  read _ := .error .notFound

set_option maxRecDepth 4000 in
/-- A file is loaded again by another spelling of its path once all files have been removed and
another loading has failed. -/
theorem loading_idempotent_removedFiles :
    let left := ((empty {}).run [(documentedFiles, .loadFile (Path.ofText "docs/A.xml".toList)),
      (removedFiles, .loadFile (Path.ofText "docs/B.xml".toList))]).2
    left.serve removedFiles (.loadFile (Path.ofText "./docs//A.xml".toList)) =
      (.loaded (.ok ()), left) := by
  have hnew : Reachable {} (empty {}) := ⟨[], rfl⟩
  exact (loading_idempotent hnew).1 documentedFiles removedFiles
    (.loadFile (Path.ofText "docs/A.xml".toList)) (.loadFile (Path.ofText "./docs//A.xml".toList))
    [(removedFiles, .loadFile (Path.ofText "docs/B.xml".toList))] rfl (by simp) rfl
    (.loadFile rfl (by decide))

set_option maxRecDepth 4000 in
/-- A second slash in front of the path of a file makes it another source: it is read again and
missed once the file has been removed, although the plain form is the same. -/
theorem doubleRooted_loaded_again :
    let request := Request.loadFile (Path.ofText "/work/A.xml".toList)
    let again := Request.loadFile (Path.ofText "//work/A.xml".toList)
    let left := ((empty {}).run [(documentedFiles, request)]).2
    Reachable {} (empty {}) ∧
      ((empty {}).serve documentedFiles request).1 = .loaded (.ok ()) ∧
      removedFiles.workingDirectory = documentedFiles.workingDirectory ∧
      Path.plainForm? documentedFiles.workingDirectory (Path.ofText "//work/A.xml".toList) =
        Path.plainForm? documentedFiles.workingDirectory (Path.ofText "/work/A.xml".toList) ∧
      (left.serve documentedFiles again).2.parses = left.parses + 1 ∧
      (left.serve removedFiles again).1 =
        .loaded (.error (.missingSource (Path.ofText "//work/A.xml".toList))) :=
  ⟨⟨[], rfl⟩, rfl, rfl, rfl, rfl, rfl⟩

end Store

end SymbolDocs
