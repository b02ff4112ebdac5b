import Mathlib.Data.List.Induction
import SymbolDocs.Proofs.Store.Owners
import SymbolDocs.Proofs.Store.Repetition
import SymbolDocs.Proofs.Store.Written
import SymbolDocs.Proofs.Text.Encoding
set_option autoImplicit false

/-!
# Where the sources of a store come from

Every source that a store knows has been taken in by some request since the store was cleared, and
its members are documented. A file that is loaded with success has therefore been read, unless a
text has been taken in under a label that is the absolute path of the file, or another file has
whose absolute path has the same text.

## Main definitions

* `Store.TakesIn` — a request takes in a source with some members.
* `Store.TakenIn` — a request of a history has taken in a source, and no clearing has followed.
* `Request.Reads` — a request reads the file that a path names.

## Main results

* `Store.serve_cases` — what a request can do other than clear the store.
* `Store.exists_takenIn` — every source that a store knows has been taken in.
* `Store.TakenIn.contains` — the members of a source taken in stay documented.
* `Store.loadFile_ok_provenance` — where a file comes from that is loaded with success.
* `Store.label_hides_file` — a text under the absolute path of a file hides the file.

## Design

Labels and the texts of absolute paths are keys of one kind, and a store does not remember which of
the two a key was. Nothing but the spelling keeps a label from being taken for the path of a file.
Two files may have one key where their absolute paths differ in bytes that are not UTF-8.
-/

namespace SymbolDocs

/-- A request reads the file that a path names: it loads the file, or looks for the documentation of
a unit beside which the file stands. -/
inductive Request.Reads (settings : StoreSettings) : Request → Path → Prop where
  /-- The file is loaded. -/
  | file {path : Path} : Reads settings (.loadFile path) path
  /-- The file stands beside a unit. -/
  | beside {owner source : Path} (source_eq : Store.ownerSource? settings owner = some source) :
      Reads settings (.loadForOwner owner) source

namespace Store

/-- A request takes in a source under a key: a text under a new label that can be scanned, or a file
that offers its members, also one beside a unit that has not been looked for. -/
inductive TakesIn (store : Store) (files : FileView) :
    Request → Text → List Markup.MemberBlock → Prop where
  /-- A text under a label. -/
  | text {label text : Text} {members : List Markup.MemberBlock} (is_new : label ∉ store.sources)
      (scanned : Markup.scan store.settings.memberElement text = .ok members) :
      TakesIn store files (.loadText label text) label members
  /-- A file. -/
  | file {path : Path} {key : Text} {members : List Markup.MemberBlock}
      (offers : store.Offers files path key members) :
      TakesIn store files (.loadFile path) key members
  /-- The file beside a unit. -/
  | beside {owner source : Path} {key : Text} {members : List Markup.MemberBlock}
      (is_new : Path.components owner ∉ store.attempted)
      (source_eq : ownerSource? store.settings owner = some source)
      (offers : store.Offers files source key members) :
      TakesIn store files (.loadForOwner owner) key members

variable {store : Store} {files : FileView} {request : Request} {key : Text}
  {members : List Markup.MemberBlock}

/-! ### What one request does -/

/-- A text that can be scanned is taken in under a new label. -/
theorem loadText_of_new {label text : Text} (hnew : label ∉ store.sources)
    (hscan : Markup.scan store.settings.memberElement text = .ok members) :
    store.loadText label text = (.ok (), store.takeIn label members) := by
  have hcontains : ¬ store.sources.contains label = true := by simpa using hnew
  rw [loadText, if_neg hcontains, ingest, hscan]

/-- **A request that takes in a source succeeds**, and leaves the store with the source taken in. -/
theorem TakesIn.serve_eq (h : store.TakesIn files request key members) :
    ∃ attempted, store.serve files request =
      (.loaded (.ok ()), { store.takeIn key members with attempted }) := by
  cases h with
  | text is_new scanned =>
    refine ⟨(store.takeIn key members).attempted, ?_⟩
    rw [serve, loadText_of_new is_new scanned]
  | file offers =>
    refine ⟨(store.takeIn key members).attempted, ?_⟩
    rw [serve, offers.loadFile_eq]
  | beside is_new source_eq offers =>
    obtain ⟨text, htext, -⟩ := offers.scanned
    have hload := loadForOwner_of_loadFile_ok is_new source_eq
      (FileView.isFile_of_sourceText? htext) offers.loadFile_eq
    rw [serve, hload]
    exact ⟨_, rfl⟩

/-- A file offers the members of a source, or its loading changes nothing. -/
theorem loadFile_cases (store : Store) (files : FileView) (path : Path) :
    (∃ key members, store.Offers files path key members) ∨
      (store.loadFile files path).2 = store := by
  rw [loadFile, fileKey]
  cases hkey : fileKey? files.workingDirectory path with
  | none => exact .inr rfl
  | some key =>
    by_cases hold : key ∈ store.sources
    · simp [hold]
    · cases hread : readSource files key path with
      | error error => simp [hold, hread]
      | ok text =>
        cases hscan : Markup.scan store.settings.memberElement text with
        | error fault => simp [hold, hread, ingest, hscan]
        | ok members =>
          exact .inl ⟨key, members, hkey, hold, text, Log.readSource_eq_ok_iff.mp hread, hscan⟩

/-- A file beside a unit offers the members of a source, or its loading changes at most which units
have been looked for. -/
theorem loadBeside_cases (store : Store) (files : FileView) (owner source : Path) :
    (∃ key members, store.Offers files source key members) ∨
      ∃ attempted, (store.loadBeside files owner source).2 = { store with attempted } := by
  by_cases hfile : files.isFile source = true
  · rcases loadFile_cases store files source with hoffers | hsame
    · exact .inl hoffers
    · right
      rw [Log.loadBeside_eq store hfile, hsame]
      split
      · exact ⟨Path.components owner :: store.attempted, rfl⟩
      · exact ⟨store.attempted, rfl⟩
  · exact .inr ⟨Path.components owner :: store.attempted, by rw [loadBeside, if_neg hfile]; rfl⟩

/-- **What a request can do** other than clear the store: it takes in a source, or at most changes
which units have been looked for. -/
theorem serve_cases (store : Store) (files : FileView) (hclear : request ≠ .clear) :
    (∃ key members, store.TakesIn files request key members) ∨
      ∃ attempted, (store.serve files request).2 = { store with attempted } := by
  cases request with
  | clear => exact absurd rfl hclear
  | query query => exact .inr ⟨store.attempted, rfl⟩
  | loadFile path =>
    rcases loadFile_cases store files path with ⟨key, members, hoffers⟩ | hsame
    · exact .inl ⟨key, members, .file hoffers⟩
    · exact .inr ⟨store.attempted, hsame⟩
  | loadText label text =>
    by_cases hold : label ∈ store.sources
    · exact .inr ⟨store.attempted, by rw [serve, loadText_of_mem hold]⟩
    · cases hscan : Markup.scan store.settings.memberElement text with
      | ok members => exact .inl ⟨label, members, .text hold hscan⟩
      | error fault => exact .inr ⟨store.attempted, by simp [serve, loadText, hold, ingest, hscan]⟩
  | loadForOwner owner =>
    rcases loadForOwner_cases store files owner with
      ⟨-, heq⟩ | ⟨-, -, heq⟩ | ⟨hnew, source, hsource, heq⟩
    · exact .inr ⟨store.attempted, by rw [serve, heq]⟩
    · exact .inr ⟨store.attempted, by rw [serve, heq]⟩
    · rcases loadBeside_cases store files owner source with ⟨key, members, hoffers⟩ | hsame
      · exact .inl ⟨key, members, .beside hnew hsource hoffers⟩
      · exact .inr (by rw [serve, heq]; exact hsame)

/-- The members of a source taken in are documented, and what was documented before still is. -/
theorem contains_takeIn (store : Store) (key : Text) (members : List Markup.MemberBlock)
    (name : Text) :
    (store.takeIn key members).contains name = true ↔
      name ∈ members.map Markup.MemberBlock.name ∨ store.contains name = true := by
  rw [contains_eq_isSome_lookup, contains_eq_isSome_lookup, lookup_takeIn, Option.isSome_or,
    Bool.or_eq_true, Log.isSome_lastBody?]

/-- What is documented stays documented, unless the store is cleared. -/
theorem contains_serve {name : Text} (hclear : request ≠ .clear)
    (h : store.contains name = true) : (store.serve files request).2.contains name = true := by
  rcases serve_cases store files hclear with ⟨key, members, htaken⟩ | ⟨attempted, hsame⟩
  · obtain ⟨attempted, hserve⟩ := htaken.serve_eq
    rw [hserve]
    exact (contains_takeIn store key members name).mpr (.inr h)
  · rw [hsame]
    exact h

/-- A source that a store knows after a request has been taken in by it, or was known before and has
not been cleared. -/
theorem mem_sources_serve (h : key ∈ (store.serve files request).2.sources) :
    (∃ members, store.TakesIn files request key members) ∨
      request ≠ .clear ∧ key ∈ store.sources := by
  by_cases hclear : request = .clear
  · rw [hclear] at h
    exact absurd h List.not_mem_nil
  · rcases serve_cases store files hclear with ⟨other, members, htaken⟩ | ⟨attempted, hsame⟩
    · obtain ⟨attempted, hserve⟩ := htaken.serve_eq
      have hsources : (store.takeIn other members).sources = other :: store.sources := by
        rw [takeIn, Log.insertAll_eq]
      rw [hserve] at h
      change key ∈ (store.takeIn other members).sources at h
      rw [hsources] at h
      rcases List.mem_cons.mp h with rfl | hold
      · exact .inl ⟨members, htaken⟩
      · exact .inr ⟨hclear, hold⟩
    · rw [hsame] at h
      exact .inr ⟨hclear, h⟩

/-! ### What a history has taken in -/

/-- A request of a history of a new store has taken in a source, and no clearing has followed. -/
def TakenIn (settings : StoreSettings) (history : List (FileView × Request)) (files : FileView)
    (request : Request) (key : Text) (members : List Markup.MemberBlock) : Prop :=
  ∃ earlier later, history = earlier ++ (files, request) :: later ∧
    (∀ entry ∈ later, entry.2 ≠ .clear) ∧
    ((empty settings).run earlier).2.TakesIn files request key members

variable {settings : StoreSettings} {history : List (FileView × Request)}

/-- **Every source that a store knows has been taken in** by a request since it was cleared.

**Proof sketch.** By induction on the history from its end. The last request has taken in the
source, or the store knew it before and has not been cleared. -/
theorem exists_takenIn (h : key ∈ ((empty settings).run history).2.sources) :
    ∃ files request members, TakenIn settings history files request key members := by
  induction history using List.reverseRecOn with
  | nil => exact absurd h List.not_mem_nil
  | append_singleton history last ih =>
    obtain ⟨files, request⟩ := last
    rw [run_append] at h
    rcases mem_sources_serve h with ⟨members, htaken⟩ | ⟨hclear, hold⟩
    · exact ⟨files, request, members, history, [], rfl, nofun, htaken⟩
    · obtain ⟨moment, first, members, earlier, later, rfl, hkept, htaken⟩ := ih hold
      refine ⟨moment, first, members, earlier, later ++ [(files, request)], by simp, ?_, htaken⟩
      intro entry hentry
      rcases List.mem_append.mp hentry with hlater | hlast
      · exact hkept entry hlater
      · rw [List.mem_singleton.mp hlast]
        exact hclear

/-- What is documented stays documented over a history, unless the store is cleared. -/
theorem contains_run {name : Text} (hkept : ∀ entry ∈ history, entry.2 ≠ .clear)
    (h : store.contains name = true) : (store.run history).2.contains name = true := by
  induction history generalizing store with
  | nil => exact h
  | cons first later ih =>
    obtain ⟨files, request⟩ := first
    rw [run_cons]
    apply ih
    · intro entry hentry
      exact hkept entry (List.mem_cons_of_mem _ hentry)
    · exact contains_serve (hkept _ List.mem_cons_self) h

/-- **The members of a source taken in stay documented.** -/
theorem TakenIn.contains (h : TakenIn settings history files request key members) :
    ∀ member ∈ members, ((empty settings).run history).2.contains member.name = true := by
  obtain ⟨earlier, later, rfl, hkept, htaken⟩ := h
  intro member hmember
  obtain ⟨attempted, hserve⟩ := htaken.serve_eq
  rw [run_append, run_cons, hserve]
  apply contains_run hkept
  exact (contains_takeIn _ key members member.name).mpr (.inl (List.mem_map_of_mem hmember))

/-! ### Files that are loaded with success -/

/-- The settings of the store that a history leaves behind are those of the new store. -/
theorem settings_run (settings : StoreSettings) (history : List (FileView × Request)) :
    ((empty settings).run history).2.settings = settings :=
  Reachable.settings_eq ⟨history, rfl⟩

/-- A source taken in is a file that has been read, or a text whose label is the key. -/
theorem TakenIn.reads_or_label (h : TakenIn settings history files request key members) :
    (∃ path text, request.Reads settings path ∧
        fileKey? files.workingDirectory path = some key ∧
        files.sourceText? path = some text ∧
        Markup.scan settings.memberElement text = .ok members) ∨
      ∃ text, request = .loadText key text := by
  obtain ⟨earlier, later, -, -, htaken⟩ := h
  have hsettings := settings_run settings earlier
  cases htaken with
  | text => exact .inr ⟨_, rfl⟩
  | file offers =>
    obtain ⟨text, htext, hscan⟩ := offers.scanned
    rw [hsettings] at hscan
    exact .inl ⟨_, text, .file, offers.key_eq, htext, hscan⟩
  | beside is_new source_eq offers =>
    obtain ⟨text, htext, hscan⟩ := offers.scanned
    rw [hsettings] at hscan source_eq
    exact .inl ⟨_, text, .beside source_eq, offers.key_eq, htext, hscan⟩

/-- A text under another label leaves what a file offers. -/
theorem Offers.of_loadText {path : Path} {label text : Text}
    (h : store.Offers files path key members) (hlabel : label ≠ key) :
    (store.loadText label text).2.Offers files path key members := by
  have hextends := extends_loadText store label text
  refine ⟨h.key_eq, fun hold => ?_, ?_⟩
  · have hserved : key ∈ (store.serve files (.loadText label text)).2.sources := hold
    rcases mem_sources_serve hserved with ⟨others, htaken⟩ | ⟨-, hknown⟩
    · cases htaken with
      | text is_new scanned => exact hlabel rfl
    · exact h.is_new hknown
  · rw [hextends.settings]
    exact h.scanned

/-- Files whose absolute paths are UTF-8 have one key only if they have one absolute path. -/
theorem absolute?_eq_of_fileKey?_eq {workingDirectory otherDirectory path other absolute
    otherAbsolute : Path} (hkey : fileKey? workingDirectory path = some key)
    (hother : fileKey? otherDirectory other = some key)
    (habsolute : Path.absolute? workingDirectory path = some absolute)
    (hotherAbsolute : Path.absolute? otherDirectory other = some otherAbsolute)
    (hutf8 : absolute.IsUtf8) (hotherUtf8 : otherAbsolute.IsUtf8) : otherAbsolute = absolute := by
  rw [fileKey?, habsolute, Option.map_some, Option.some.injEq] at hkey
  rw [fileKey?, hotherAbsolute, Option.map_some, Option.some.injEq] at hother
  exact (hotherUtf8.text_inj hutf8).mp (hother.trans hkey.symm)

/-- **Where a file comes from that is loaded with success.** At that moment or before, since the
store was cleared, a source has been taken in under the key of the file, which is the text of its
absolute path, and its members are documented: either a file with that key was read, and these are
the members of its text, or a text was taken in whose label is the key. The file that was read has
the same absolute path if both absolute paths are UTF-8.

A text under another label leaves a file to be read, so that the file is taken in as if the text had
not been loaded. A text that is taken in under the key of a file hides the file: whatever the file
holds, it is loaded with success and without being read.

**Proof sketch.** After a success the key is among the sources, each of which some request of the
history has taken in. -/
theorem loadFile_ok_provenance (settings : StoreSettings) (history : List (FileView × Request))
    (files : FileView) (path : Path) :
    let before := ((empty settings).run history).2
    let requests := history ++ [(files, .loadFile path)]
    ((before.serve files (.loadFile path)).1 = .loaded (.ok ()) →
      ∃ key moment request members, fileKey? files.workingDirectory path = some key ∧
        TakenIn settings requests moment request key members ∧
        (∀ member ∈ members, ((empty settings).run requests).2.contains member.name = true) ∧
        ((∃ other text, request.Reads settings other ∧
            fileKey? moment.workingDirectory other = some key ∧
            (∀ absolute otherAbsolute, Path.absolute? files.workingDirectory path = some absolute →
              Path.absolute? moment.workingDirectory other = some otherAbsolute →
              absolute.IsUtf8 → otherAbsolute.IsUtf8 → otherAbsolute = absolute) ∧
            moment.sourceText? other = some text ∧
            Markup.scan settings.memberElement text = .ok members) ∨
          ∃ text, request = .loadText key text)) ∧
    (∀ label text key members, before.Offers files path key members → label ≠ key →
      let left := (before.loadText label text).2
      left.loadFile files path = (.ok (), left.takeIn key members)) ∧
    ∀ key text members, fileKey? files.workingDirectory path = some key →
      before.TakesIn files (.loadText key text) key members →
        let left := (before.loadText key text).2
        left = before.takeIn key members ∧ left.loadFile files path = (.ok (), left) := by
  intro before requests
  refine ⟨fun hok => ?_, fun label text key members hoffers hlabel => ?_,
    fun key text members hkey htaken => ?_⟩
  · obtain ⟨key, hknown, hkey⟩ := mem_sources_of_loadFile_ok (Response.loaded.inj hok)
    have hsources : key ∈ ((empty settings).run requests).2.sources := by
      rw [run_append]
      exact hknown
    obtain ⟨moment, request, members, htaken⟩ := exists_takenIn hsources
    refine ⟨key, moment, request, members, hkey, htaken, htaken.contains, ?_⟩
    rcases htaken.reads_or_label with ⟨other, text, hreads, hother, htext, hscan⟩ | hlabel
    · exact .inl ⟨other, text, hreads, hother,
        fun _ _ => absolute?_eq_of_fileKey?_eq hkey hother, htext, hscan⟩
    · exact .inr hlabel
  · exact (hoffers.of_loadText hlabel).loadFile_eq
  · have hload : before.loadText key text = (.ok (), before.takeIn key members) := by
      cases htaken with
      | text is_new scanned => exact loadText_of_new is_new scanned
    have hmem := mem_sources_of_loadText_ok (congrArg Prod.fst hload)
    rw [hload] at hmem ⊢
    exact ⟨rfl, loadFile_of_mem hkey hmem⟩

set_option maxRecDepth 4000 in
/-- A file is read after a text has been loaded under its name, which is not its absolute path, and
is not read after a text has been loaded under that path. -/
theorem loadFile_ok_provenance_documentedFiles :
    let path := Path.ofText "A.xml".toList
    let named := ((empty {}).loadText "A.xml".toList []).2
    let hidden := ((empty {}).loadText "/work/A.xml".toList []).2
    (∃ moment request members, TakenIn {} [(documentedFiles, .loadText "A.xml".toList []),
        (documentedFiles, .loadFile path)] moment request "/work/A.xml".toList members) ∧
      named.loadFile documentedFiles path =
        (.ok (), named.takeIn "/work/A.xml".toList [⟨['A'], ['a']⟩]) ∧
      hidden.loadFile documentedFiles path = (.ok (), hidden) := by
  intro path named hidden
  have hstart := loadFile_ok_provenance {} [] documentedFiles path
  refine ⟨?_, ?_, ?_⟩
  · obtain ⟨key, moment, request, members, hkey, htaken, -⟩ :=
      (loadFile_ok_provenance {} [(documentedFiles, .loadText "A.xml".toList [])] documentedFiles
        path).1 rfl
    obtain rfl : "/work/A.xml".toList = key := Option.some.inj hkey
    exact ⟨moment, request, members, htaken⟩
  · exact hstart.2.1 "A.xml".toList [] "/work/A.xml".toList [⟨['A'], ['a']⟩]
      ⟨rfl, List.not_mem_nil, _, rfl, rfl⟩ (by decide)
  · exact (hstart.2.2 "/work/A.xml".toList [] [] rfl (.text List.not_mem_nil rfl)).2

set_option maxRecDepth 4000 in
/-- **A text under the absolute path of a file hides the file.** The file holds a member and is
loaded with success, but has not been read, and the member is not documented. -/
theorem label_hides_file :
    let path := Path.ofText "A.xml".toList
    let requests := [(documentedFiles, Request.loadText "/work/A.xml".toList []),
      (documentedFiles, .loadFile path)]
    let left := ((empty {}).run requests).2
    Path.absolute? documentedFiles.workingDirectory path =
        some (Path.ofText "/work/A.xml".toList) ∧
      left.parses = 1 ∧ left.contains ['A'] = false ∧
      ((empty {}).run requests).1 = [.loaded (.ok ()), .loaded (.ok ())] ∧
      ∃ text, documentedFiles.sourceText? path = some text ∧
        Markup.scan "member".toList text = .ok [⟨['A'], ['a']⟩] :=
  ⟨rfl, rfl, rfl, rfl, _, rfl, rfl⟩

end Store

end SymbolDocs
