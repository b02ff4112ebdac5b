import SymbolDocs.Proofs.Store.Run
set_option autoImplicit false

/-!
# Failed loadings

A loading that fails leaves the store as it was, so that it may be tried again as if for the first
time. A lenient store that meets malformed documentation beside a unit remembers the unit and
nothing else.

## Main definitions

* `Store.Malformed` — a file that a store would read, but cannot take in.
* `Store.succeeding` — a history without the requests that fail in it.

## Main results

* `Store.serve_of_error` — a request that fails leaves the store as it was.
* `Store.run_succeeding` — a history leaves the same store behind without what fails in it.
* `Store.loadForOwner_of_malformed` — a lenient store counts malformed documentation as none.
* `Store.failed_loadings_atomic` — failed loadings change nothing, whatever follows them.
-/

namespace SymbolDocs

namespace Store

/-! ### Failures leave the store as it was -/

/-- A text that cannot be scanned is not taken in. -/
theorem ingest_of_error {store : Store} {key text : Text} {error : LoadError}
    (h : (store.ingest key text).1 = .error error) : (store.ingest key text).2 = store := by
  rw [ingest] at h ⊢
  cases hscan : Markup.scan store.settings.memberElement text with
  | ok blocks => simp [hscan] at h
  | error fault => rfl

/-- A text that cannot be loaded leaves the store as it was. -/
theorem loadText_of_error {store : Store} {label text : Text} {error : LoadError}
    (h : (store.loadText label text).1 = .error error) : (store.loadText label text).2 = store := by
  rw [loadText] at h ⊢
  split
  · rfl
  · next hnew =>
    rw [if_neg hnew] at h
    exact ingest_of_error h

/-- A file that cannot be loaded leaves the store as it was. -/
theorem loadFile_of_error {store : Store} {files : FileView} {path : Path} {error : LoadError}
    (h : (store.loadFile files path).1 = .error error) :
    (store.loadFile files path).2 = store := by
  rw [loadFile] at h ⊢
  cases hkey : fileKey files path with
  | error fault => rfl
  | ok key =>
    simp only [hkey] at h ⊢
    split
    · rfl
    · next hnew =>
      rw [if_neg hnew] at h
      cases hread : readSource files key path with
      | error fault => rfl
      | ok text =>
        simp only [hread] at h
        exact ingest_of_error h

/-- A path at which documentation cannot be loaded leaves the store as it was. -/
theorem loadBeside_of_error {store : Store} {files : FileView} {owner source : Path}
    {error : LoadError} (h : (store.loadBeside files owner source).1 = .error error) :
    (store.loadBeside files owner source).2 = store := by
  rw [loadBeside] at h ⊢
  split
  · next hfile =>
    rw [if_pos hfile] at h
    cases hload : store.loadFile files source with
    | mk outcome left =>
      cases outcome with
      | ok done => simp [hload] at h
      | error fault =>
        have hleft : left = store := by
          have hfailed := loadFile_of_error (congrArg Prod.fst hload)
          rwa [hload] at hfailed
        simp only [hload] at h ⊢
        split
        · next hlenient => simp [hlenient] at h
        · exact hleft
  · next hfile => simp [hfile] at h

/-- A unit whose documentation cannot be loaded leaves the store as it was, and so does one without
a path to look at. -/
theorem loadForOwner_of_error {store : Store} {files : FileView} {owner : Path} {error : LoadError}
    (h : (store.loadForOwner files owner).1 = .error error) :
    (store.loadForOwner files owner).2 = store := by
  rcases loadForOwner_cases store files owner with
    ⟨-, heq⟩ | ⟨-, -, heq⟩ | ⟨-, source, -, heq⟩
  · rw [heq]
  · rw [heq]
  · rw [heq] at h ⊢
    exact loadBeside_of_error h

/-- **A request that fails leaves the store as it was.** -/
theorem serve_of_error {store : Store} {files : FileView} {request : Request} {error : LoadError}
    (h : (store.serve files request).1 = .loaded (.error error)) :
    (store.serve files request).2 = store := by
  cases request with
  | loadFile path => exact loadFile_of_error (Response.loaded.inj h)
  | loadText label text => exact loadText_of_error (Response.loaded.inj h)
  | loadForOwner owner => exact loadForOwner_of_error (Response.loaded.inj h)
  | clear => exact absurd h (by simp [serve])
  | query query => exact absurd h (by simp [serve])

/-- A history without the requests that fail in it. -/
def succeeding (store : Store) : List (FileView × Request) → List (FileView × Request)
  | [] => []
  | (files, request) :: later =>
    let (response, next) := store.serve files request
    if Response.isFailure response then succeeding next later
    else (files, request) :: succeeding next later

/-- A first request is left out exactly where it fails. -/
theorem succeeding_cons (store : Store) (files : FileView) (request : Request)
    (later : List (FileView × Request)) :
    store.succeeding ((files, request) :: later) =
      if Response.isFailure (store.serve files request).1 then
        (store.serve files request).2.succeeding later
      else (files, request) :: (store.serve files request).2.succeeding later :=
  rfl

/-- **A history leaves the same store behind without what fails in it**, and what succeeds is
responded to in the same way.

**Proof sketch.** By induction on the history: a failed request leaves the store as it was, so that
what follows is served as if the request had not been made. -/
theorem run_succeeding (store : Store) (history : List (FileView × Request)) :
    store.run (store.succeeding history) =
      ((store.run history).1.filter fun response => !Response.isFailure response,
        (store.run history).2) := by
  induction history generalizing store with
  | nil => rfl
  | cons first later ih =>
    obtain ⟨files, request⟩ := first
    rw [run_cons, succeeding_cons]
    have hlater := ih (store.serve files request).2
    by_cases hfailure : Response.isFailure (store.serve files request).1 = true
    · obtain ⟨error, herror⟩ := Response.exists_of_isFailure hfailure
      rw [serve_of_error herror] at hlater
      rw [if_pos hfailure, serve_of_error herror, hlater,
        List.filter_cons_of_neg (by simp [hfailure])]
    · rw [if_neg hfailure, run_cons, hlater, List.filter_cons_of_pos (by simp [hfailure])]

/-! ### Malformed documentation beside a unit -/

/-- A file that a store would read, since it has not taken it in, but cannot take in: it is no text,
or its text cannot be scanned. -/
def Malformed (store : Store) (files : FileView) (path : Path) : Prop :=
  files.isFile path = true ∧ ∃ key bytes, fileKey? files.workingDirectory path = some key ∧
    key ∉ store.sources ∧ files.read path = .ok bytes ∧
    ∀ text, Text.Utf8.decode bytes = .ok text →
      ∃ fault, Markup.scan store.settings.memberElement text = .error fault

/-- A malformed file is not loaded, and the error says that it is malformed. -/
theorem loadFile_of_malformed {store : Store} {files : FileView} {path : Path}
    (h : store.Malformed files path) :
    ∃ error, store.loadFile files path = (.error error, store) ∧ error.isMalformed = true := by
  obtain ⟨hfile, key, bytes, hkey, hnew, hread, htext⟩ := h
  have hkey' : fileKey files path = .ok key := by rw [fileKey, hkey]
  have hcontains : ¬ store.sources.contains key = true := by simpa using hnew
  rw [loadFile, hkey']
  simp only [hcontains, readSource, hfile, hread]
  cases hdecode : Text.Utf8.decode bytes with
  | error fault => exact ⟨.notText key fault, by simp, rfl⟩
  | ok text =>
    obtain ⟨fault, hscan⟩ := htext text hdecode
    refine ⟨.notScannable key fault, ?_, rfl⟩
    simp [ingest, hscan]

/-- **A lenient store counts malformed documentation as none**: it remembers the unit and is
otherwise as it was. -/
theorem loadForOwner_of_malformed {store : Store} {files : FileView} {owner source : Path}
    (hlenient : store.settings.strictOwners = false)
    (hnew : Path.components owner ∉ store.attempted)
    (hsource : ownerSource? store.settings owner = some source)
    (h : store.Malformed files source) :
    store.loadForOwner files owner = (.ok (), store.attempt owner) := by
  obtain ⟨error, hload, hmalformed⟩ := loadFile_of_malformed h
  rw [loadForOwner_eq_loadBeside hnew hsource, loadBeside]
  simp [h.1, hload, hmalformed, hlenient]

/-- Files that all hold an empty member element and then an end tag too many. -/
def brokenFiles : FileView where
  workingDirectory := [Path.slash]
  isFile _ := true
  read _ := .ok ("<member name='A'/></b>".toList.map fun c => c.toNat.toUInt8)

set_option maxRecDepth 4000 in
/-- A new store meets malformed documentation in these files. -/
theorem malformed_brokenFiles :
    (empty {}).Malformed brokenFiles (Path.ofText "Sample.xml".toList) := by
  refine ⟨rfl, "/Sample.xml".toList, _, rfl, List.not_mem_nil, rfl, fun text htext => ?_⟩
  obtain rfl : "<member name='A'/></b>".toList = text := Except.ok.inj htext
  exact ⟨⟨1, .unexpectedClose "b".toList⟩, rfl⟩

/-! ### Atomicity -/

/-- **Failed loadings are atomic**, whatever the store and the files. A loading that fails, of a
file, of a text or for a unit, leaves every part of the store as it was, and whatever is asked
afterwards, the same loading among it, is responded to as if it had not been tried. A lenient store
that meets malformed documentation beside a unit succeeds and remembers the unit alone. -/
theorem failed_loadings_atomic (store : Store) (files : FileView) :
    (∀ request error, (store.serve files request).1 = .loaded (.error error) →
      (store.serve files request).2 = store ∧
        ∀ later, store.run ((files, request) :: later) =
          (.loaded (.error error) :: (store.run later).1, (store.run later).2)) ∧
    ∀ owner source, store.settings.strictOwners = false →
      Path.components owner ∉ store.attempted →
      ownerSource? store.settings owner = some source → store.Malformed files source →
        store.serve files (.loadForOwner owner) =
          (.loaded (.ok ()),
            { store with attempted := Path.components owner :: store.attempted }) := by
  refine ⟨fun request error h => ?_, fun owner source hlenient hnew hsource hmalformed => ?_⟩
  · have hleft := serve_of_error h
    refine ⟨hleft, fun later => ?_⟩
    rw [run_cons, h, hleft]
  · rw [serve, loadForOwner_of_malformed hlenient hnew hsource hmalformed]
    rfl

/-- A new store is left as it was by the loading of a malformed file, and remembers the unit beside
which it stands. -/
theorem failed_loadings_brokenFiles :
    ((empty {}).serve brokenFiles (.loadFile (Path.ofText "Sample.xml".toList))).2 = empty {} ∧
      (empty {}).serve brokenFiles (.loadForOwner (Path.ofText "Sample.dll".toList)) =
        (.loaded (.ok ()), { empty {} with attempted := [[Path.ofText "Sample.dll".toList]] }) := by
  obtain ⟨error, hload, -⟩ := loadFile_of_malformed malformed_brokenFiles
  have hatomic := failed_loadings_atomic (empty {}) brokenFiles
  refine ⟨(hatomic.1 (.loadFile (Path.ofText "Sample.xml".toList)) error ?_).1, ?_⟩
  · rw [serve]
    exact congrArg Response.loaded (congrArg Prod.fst hload)
  · exact hatomic.2 (Path.ofText "Sample.dll".toList) _ rfl List.not_mem_nil rfl
      malformed_brokenFiles

end Store

end SymbolDocs
