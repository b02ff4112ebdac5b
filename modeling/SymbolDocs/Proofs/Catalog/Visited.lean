import Mathlib.Data.List.Forall2
import SymbolDocs.Catalog.Basic
import SymbolDocs.Proofs.Outcome
set_option autoImplicit false

/-!
# What a catalog lists

A catalog visits the symbols of a source in order, without those that are filtered out, and lists
exactly the symbols it visits.

## Main definitions

* `Catalog.visited` — the symbols that are visited.
* `Catalog.Describes`, `Catalog.DescribesParameter` — what the entry of a symbol and that of a
  parameter say.
* `Catalog.Documents` — the entries of a symbol and of its listed parameters.
* `Catalog.Lists` — the entries of some symbols.

## Main results

* `Catalog.entries_eq_collect` — the nested passes over types and members are one over the visited
  symbols.
* `Catalog.symbolEntries_eq_ok_iff` — what the entries of one symbol are.
* `Catalog.collect_eq_ok_iff_lists` — what the entries of some symbols are.
* `Catalog.ofSource_lists_visited` — a catalog lists the visited symbols, or fails as the first of
  them without an identifier does.

## Design

The entries of a parameter are described by `Store.parameterDocumentation`, which looks the member
up again. A catalog does not: it takes the note from the documentation found for the member before.
-/

namespace SymbolDocs

namespace Catalog

variable {store : Store} {filter : CatalogFilter} {source : SymbolSource}

/-! ### The visited symbols -/

/-- A type and those of its members that are not local functions to be skipped. -/
def symbolsOf (filter : CatalogFilter) (source : SymbolSource) (type : TypeTerm) : List Symbol :=
  .type type :: ((source.membersOf type).filter fun member =>
    ¬ (filter.skipLocalFunctions ∧ isLocalFunction member.name)).map .member

/-- The symbols that a catalog visits: each type in order, unless it is no interface and only those
are wanted, and its members in order. -/
def visited (filter : CatalogFilter) (source : SymbolSource) : List Symbol :=
  (source.exported.filter fun type => filter.interfacesOnly → type.isInterface).flatMap
    (symbolsOf filter source)

/-- The parameters of a member that have an entry of their own. -/
def listedParameters (filter : CatalogFilter) (member : Member) : List Parameter :=
  if filter.withParameters then member.parameters else []

/-! ### What entries say -/

/-- The entry of a symbol: it has the identifier and the kind of the symbol, no parameter, and the
documentation that the store holds under the identifier. -/
structure Describes (store : Store) (symbol : Symbol) (entry : CatalogEntry) : Prop where
  /-- The identifier is that of the symbol. -/
  identifier_eq : Identifier.ofSymbol symbol = .ok entry.identifier
  /-- The kind is that of the symbol. -/
  kind_eq : entry.kind = symbol.kind
  /-- The entry is of no parameter. -/
  parameter_eq : entry.parameter = none
  /-- The documentation is what is held under the identifier. -/
  documentation_eq : entry.documentation = store.lookup entry.identifier

/-- The entry of a parameter: it has the identifier and the kind of the member, the name of the
parameter, and the note that the store gives on the parameter. -/
structure DescribesParameter (store : Store) (member : Member) (parameter : Parameter)
    (entry : CatalogEntry) : Prop where
  /-- The identifier is that of the member. -/
  identifier_eq : Identifier.ofMember member = .ok entry.identifier
  /-- The kind is that of the member. -/
  kind_eq : entry.kind = (Symbol.member member).kind
  /-- The entry is of the parameter. -/
  parameter_eq : entry.parameter = some parameter.name
  /-- The documentation is the note on the parameter. -/
  documentation_eq : store.parameterDocumentation member parameter.name = .ok entry.documentation

/-- The entries of a symbol: its own, and after that of a member those of the listed parameters in
order. -/
inductive Documents (store : Store) (filter : CatalogFilter) : Symbol → List CatalogEntry → Prop
  /-- A type has one entry. -/
  | type {type : TypeTerm} {entry : CatalogEntry} (h : Describes store (.type type) entry) :
      Documents store filter (.type type) [entry]
  /-- A member has one entry, and one for each listed parameter. -/
  | member {member : Member} {entry : CatalogEntry} {notes : List CatalogEntry}
      (h : Describes store (.member member) entry)
      (hnotes : List.Forall₂ (DescribesParameter store member) (listedParameters filter member)
        notes) :
      Documents store filter (.member member) (entry :: notes)

/-- The entries of some symbols: those of each symbol in order. -/
inductive Lists (store : Store) (filter : CatalogFilter) : List Symbol → List CatalogEntry → Prop
  /-- No symbol has no entry. -/
  | nil : Lists store filter [] []
  /-- The entries of the first symbol stand before those of the others. -/
  | cons {symbol : Symbol} {symbols : List Symbol} {own others : List CatalogEntry}
      (h : Documents store filter symbol own) (hothers : Lists store filter symbols others) :
      Lists store filter (symbol :: symbols) (own ++ others)

/-! ### One pass over the visited symbols -/

/-- The entries of a symbol. -/
def symbolEntries (store : Store) (filter : CatalogFilter) :
    Symbol → Except IdentifierError (List CatalogEntry)
  | .type type => (entryOf store (.type type)).map fun entry => [entry]
  | .member member => memberEntries store filter member

/-- The entries of a type and its members are those of its symbols. -/
theorem typeEntries_eq_collect (type : TypeTerm) :
    typeEntries store filter source type =
      collect (symbolEntries store filter) (symbolsOf filter source type) := by
  have hholds : (fun member => decide (¬ (filter.skipLocalFunctions ∧
      isLocalFunction member.name))) = holdsMember filter := by
    funext member
    simp [holdsMember, Bool.not_and]
  have hmembers : symbolEntries store filter ∘ Symbol.member = memberEntries store filter := rfl
  -- both sides are now the same steps, put together differently
  rw [symbolsOf, collect_cons, collect, List.mapM_map, hmembers, hholds, typeEntries, symbolEntries]
  cases entryOf store (.type type) with
  | error error => rfl
  | ok entry =>
    cases ((source.membersOf type).filter (holdsMember filter)).mapM
      (memberEntries store filter) <;> rfl

/-- **The nested passes over types and members are one over the visited symbols.** -/
theorem entries_eq_collect :
    entries store filter source = collect (symbolEntries store filter) (visited filter source) := by
  have hholds : (fun type : TypeTerm => decide (filter.interfacesOnly → type.isInterface)) =
      holdsType filter := by
    funext type
    cases h : filter.interfacesOnly <;> simp [holdsType, h]
  rw [visited, collect_flatMap, ← funext typeEntries_eq_collect, hholds, entries, collect]
  cases (source.exported.filter (holdsType filter)).mapM (typeEntries store filter source) <;> rfl

/-! ### The entries of symbols -/

/-- The entry of a symbol is what describes it. -/
theorem entryOf_eq_ok_iff {symbol : Symbol} {entry : CatalogEntry} :
    entryOf store symbol = .ok entry ↔ Describes store symbol entry := by
  rw [entryOf, bind_eq_ok]
  constructor
  · rintro ⟨identifier, hidentifier, hentry⟩
    obtain rfl := Except.ok.inj hentry
    exact ⟨hidentifier, rfl, rfl, rfl⟩
  · rintro ⟨hidentifier, hkind, hparameter, hdocumentation⟩
    refine ⟨entry.identifier, hidentifier, ?_⟩
    rw [← hkind, ← hdocumentation, ← hparameter]

/-- The note on a parameter that a store gives is that in the documentation of the member. -/
theorem Describes.parameterDocumentation_eq {member : Member} {entry : CatalogEntry}
    (h : Describes store (.member member) entry) (parameter : Text) :
    store.parameterDocumentation member parameter =
      .ok (entry.documentation.bind (Markup.parameterNote? parameter)) := by
  have hidentifier : Identifier.ofMember member = .ok entry.identifier := h.identifier_eq
  rw [h.documentation_eq, Store.parameterDocumentation, Store.memberDocumentation, hidentifier]
  rfl

/-- The entry of a parameter that is made from the entry of its member. -/
def noteEntry (entry : CatalogEntry) (parameter : Parameter) : CatalogEntry :=
  { entry with
    parameter := some parameter.name
    documentation := entry.documentation.bind (Markup.parameterNote? parameter.name) }

/-- The entry of a parameter is the one made from the entry of its member. -/
theorem describesParameter_iff {member : Member} {parameter : Parameter} {entry note : CatalogEntry}
    (h : Describes store (.member member) entry) :
    DescribesParameter store member parameter note ↔ noteEntry entry parameter = note := by
  have hidentifier : Identifier.ofMember member = .ok entry.identifier := h.identifier_eq
  have hnote := h.parameterDocumentation_eq parameter.name
  constructor
  · rintro ⟨hown, hkind, hparameter, hdocumentation⟩
    have hsame : entry.identifier = note.identifier :=
      Except.ok.inj (hidentifier.symm.trans hown)
    have hbody := Except.ok.inj (hnote.symm.trans hdocumentation)
    rw [noteEntry, hsame, h.kind_eq, ← hkind, ← hparameter, hbody]
  · rintro rfl
    exact ⟨hidentifier, h.kind_eq, rfl, hnote⟩

/-- **What the entries of one symbol are.** -/
theorem symbolEntries_eq_ok_iff {symbol : Symbol} {own : List CatalogEntry} :
    symbolEntries store filter symbol = .ok own ↔ Documents store filter symbol own := by
  cases symbol with
  | type type =>
    rw [symbolEntries, map_eq_ok]
    constructor
    · rintro ⟨entry, hentry, rfl⟩
      exact .type (entryOf_eq_ok_iff.mp hentry)
    · rintro ⟨hentry⟩
      exact ⟨_, entryOf_eq_ok_iff.mpr hentry, rfl⟩
  | member member =>
    have hnotes : ∀ entry, (if filter.withParameters then parameterEntries entry member else []) =
        (listedParameters filter member).map (noteEntry entry) := by
      intro entry
      rw [listedParameters]
      split <;> rfl
    rw [symbolEntries, memberEntries, bind_eq_ok]
    simp only [hnotes]
    constructor
    · rintro ⟨entry, hentry, hown⟩
      obtain rfl := Except.ok.inj hown
      have hdescribes := entryOf_eq_ok_iff.mp hentry
      refine .member hdescribes ?_
      -- the notes are an image of the parameters, so each is compared with its own parameter
      rw [List.forall₂_map_right_iff, List.forall₂_same]
      exact fun parameter _ => (describesParameter_iff hdescribes).mpr rfl
    · rintro (_ | ⟨hdescribes, hlisted⟩)
      refine ⟨_, entryOf_eq_ok_iff.mpr hdescribes, ?_⟩
      have hsame := hlisted.imp fun _ _ => (describesParameter_iff hdescribes).mp
      rw [← List.forall₂_map_left_iff, List.forall₂_eq_eq_eq] at hsame
      rw [hsame]

/-- **What the entries of some symbols are.** -/
theorem collect_eq_ok_iff_lists {symbols : List Symbol} {entries : List CatalogEntry} :
    collect (symbolEntries store filter) symbols = .ok entries ↔
      Lists store filter symbols entries := by
  induction symbols generalizing entries with
  | nil =>
    rw [collect_nil]
    constructor
    · rintro ⟨⟩
      exact .nil
    · rintro ⟨⟩
      rfl
  | cons symbol symbols ih =>
    rw [collect_cons, bind_eq_ok]
    constructor
    · rintro ⟨own, hown, hrest⟩
      obtain ⟨others, hothers, rfl⟩ := map_eq_ok.mp hrest
      exact .cons (symbolEntries_eq_ok_iff.mp hown) (ih.mp hothers)
    · rintro (_ | ⟨hown, hothers⟩)
      exact ⟨_, symbolEntries_eq_ok_iff.mpr hown, map_eq_ok.mpr ⟨_, ih.mpr hothers, rfl⟩⟩

/-! ### Failures -/

/-- The entries of a symbol cannot be given exactly where its identifier cannot. -/
theorem symbolEntries_eq_error_iff {symbol : Symbol} {error : IdentifierError} :
    symbolEntries store filter symbol = .error error ↔
      Identifier.ofSymbol symbol = .error error := by
  cases symbol <;> simp only [symbolEntries, memberEntries, entryOf] <;>
    cases Identifier.ofSymbol _ <;> simp [bind, Except.bind, Except.map]

/-- The entries of a symbol can be given exactly where its identifier can. -/
theorem symbolEntries_succeeds_iff {symbol : Symbol} :
    (∃ own, symbolEntries store filter symbol = .ok own) ↔
      ∃ identifier, Identifier.ofSymbol symbol = .ok identifier := by
  simp only [succeeds_iff, ne_eq, symbolEntries_eq_error_iff]

/-! ### Catalogs -/

section Loaded

variable {files : FileView} {loaded : Store}
  (hload : store.loadForOwner files source.owner = (.ok (), loaded))

include hload

/-- A catalog collects the entries of the visited symbols, once the documentation of the unit has
been loaded. -/
theorem ofSource_eq_collect :
    ofSource store files source filter =
      ((collect (symbolEntries loaded filter) (visited filter source)).mapError .identifier,
        loaded) := by
  rw [ofSource, hload, ← entries_eq_collect]

/-- **What a catalog is** where it succeeds. -/
theorem ofSource_eq_ok_iff {entries : List CatalogEntry} :
    (ofSource store files source filter).1 = .ok entries ↔
      Lists loaded filter (visited filter source) entries := by
  rw [ofSource_eq_collect hload]
  exact mapError_eq_ok.trans collect_eq_ok_iff_lists

/-- **Where a catalog succeeds.** -/
theorem ofSource_succeeds_iff :
    (∃ entries, (ofSource store files source filter).1 = .ok entries) ↔
      ∀ symbol ∈ visited filter source,
        ∃ identifier, Identifier.ofSymbol symbol = .ok identifier := by
  rw [ofSource_eq_collect hload]
  simp only [mapError_eq_ok, collect_succeeds_iff, symbolEntries_succeeds_iff]

end Loaded

/-- **A catalog lists exactly the visited symbols.** Where the documentation of the unit cannot be
loaded, this is the outcome. Otherwise the entries are those of the visited symbols, in order and
with what the store has loaded. They can be given exactly where every visited symbol has an
identifier, and the catalog fails as the first one without an identifier does.

**Proof sketch.** The passes over the types and over the members of each are one over the visited
symbols, which collects the entries of each and fails where the identifier of one does. -/
theorem ofSource_lists_visited (store : Store) (files : FileView) (source : SymbolSource)
    (filter : CatalogFilter) :
    (∀ error left, store.loadForOwner files source.owner = (.error error, left) →
      ofSource store files source filter = (.error (.load error), left)) ∧
    ∀ loaded, store.loadForOwner files source.owner = (.ok (), loaded) →
      (ofSource store files source filter).2 = loaded ∧
      (∀ entries, (ofSource store files source filter).1 = .ok entries ↔
        Lists loaded filter (visited filter source) entries) ∧
      ((∃ entries, (ofSource store files source filter).1 = .ok entries) ↔
        ∀ symbol ∈ visited filter source,
          ∃ identifier, Identifier.ofSymbol symbol = .ok identifier) ∧
      ∀ error, (ofSource store files source filter).1 = .error error ↔
        ∃ fault, error = .identifier fault ∧
          FailsFirst Identifier.ofSymbol (visited filter source) fault := by
  refine ⟨fun error left hload => by rw [ofSource, hload], fun loaded hload => ?_⟩
  have hfails : ∀ fault,
      collect (symbolEntries loaded filter) (visited filter source) = .error fault ↔
        FailsFirst Identifier.ofSymbol (visited filter source) fault :=
    fun fault => collect_eq_error_iff.trans (failsFirst_congr fun _ _ => symbolEntries_eq_error_iff)
  refine ⟨?_, fun entries => ofSource_eq_ok_iff hload, ofSource_succeeds_iff hload,
    fun error => ?_⟩
  · rw [ofSource_eq_collect hload]
  · rw [ofSource_eq_collect hload]
    simp only [mapError_eq_error, hfails]

/-- An interface with a method, and with a local function of the method whose parameter has a type
that is declared nowhere; and a class. -/
def readerUnit : SymbolListing where
  owner := "Reader.dll".toList
  types :=
    let interface := TypeTerm.named { name := "IReader".toList, isInterface := true } none [] []
    [{ type := interface
       members :=
        [.method { name := "Read".toList, declaring := interface,
                   parameters := [⟨"line".toList, .plain [] "Line".toList⟩] },
         .method { name := "<Read>g__Skip|0_0".toList, declaring := interface,
                   parameters := [⟨"line".toList, .genericParameter { name := "T".toList }⟩] }] },
     { type := .plain [] "Reader".toList }]

/-- The documentation of the method, with a note on its parameter. -/
def readerFiles : FileView where
  workingDirectory := Path.ofText "/work".toList
  isFile path := path = Path.ofText "Reader.xml".toList
  read _ :=
    .ok ("<member name='M:IReader.Read(Line)'><param name=\"line\">a</param></member>".toList.map
      fun c => c.toNat.toUInt8)

set_option maxRecDepth 8000 in
/-- Of the interfaces of the unit, the method and its parameter are listed with their documentation.
With local functions, the catalog fails. Where the settings are strict and the documentation cannot
be loaded, it fails before. -/
theorem ofSource_readerUnit :
    (ofSource (.empty {}) readerFiles readerUnit.source
        { interfacesOnly := true, withParameters := true }).1 =
      .ok [{ identifier := "T:IReader".toList, kind := .type },
        { identifier := "M:IReader.Read(Line)".toList, kind := .method,
          documentation := some "<param name=\"line\">a</param>".toList },
        { identifier := "M:IReader.Read(Line)".toList, kind := .method,
          parameter := some "line".toList,
          documentation := some "<param name=\"line\">a</param>".toList }] ∧
      (ofSource (.empty {}) readerFiles readerUnit.source { skipLocalFunctions := false }).1 =
        .error (.identifier (.unresolvedParameter "T".toList)) ∧
      ∃ error, ofSource (.empty { strictOwners := true })
          { readerFiles with read := fun _ => .ok ['<'.toNat.toUInt8] } readerUnit.source {} =
        (.error (.load error), .empty { strictOwners := true }) := by
  refine ⟨?_, ?_, ?_⟩
  · refine ((ofSource_lists_visited (.empty {}) readerFiles readerUnit.source
      { interfacesOnly := true, withParameters := true }).2 _ rfl).2.1 _ |>.mpr ?_
    show Lists _ _ [_, _] ([_] ++ ([_, _] ++ []))
    exact .cons (.type ⟨rfl, rfl, rfl, rfl⟩)
      (.cons (.member ⟨rfl, rfl, rfl, rfl⟩ (.cons ⟨rfl, rfl, rfl, rfl⟩ .nil)) .nil)
  · refine ((ofSource_lists_visited (.empty {}) readerFiles readerUnit.source
      { skipLocalFunctions := false }).2 _ rfl).2.2.2 _ |>.mpr ⟨_, rfl, ?_⟩
    exact ⟨[_, _], _, _, rfl,
      List.forall_mem_cons.mpr ⟨⟨_, rfl⟩, List.forall_mem_cons.mpr ⟨⟨_, rfl⟩, nofun⟩⟩, rfl⟩
  · exact ⟨_, (ofSource_lists_visited (.empty { strictOwners := true })
      { readerFiles with read := fun _ => .ok ['<'.toNat.toUInt8] } readerUnit.source {}).1 _ _ rfl⟩

end Catalog

end SymbolDocs
