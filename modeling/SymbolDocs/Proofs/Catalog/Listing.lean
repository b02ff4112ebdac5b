import SymbolDocs.Proofs.Catalog.Visited
import SymbolDocs.Proofs.Identifier.SymbolText
set_option autoImplicit false

/-!
# The catalog of a listing

A listing is asked for the members of a type by the type, and answers with those of the first entry
for it. The catalog of the listing with nothing filtered out therefore repeats the members of the
first of several entries for one type, and leaves those of the others out.

## Main definitions

* `TypeListing.symbols`, `SymbolListing.symbols` — the symbols that an entry and a listing hold.
* `SymbolListing.reported` — the symbols that a listing reports when it is asked type by type.

## Main results

* `SymbolListing.membersOf_first`, `SymbolListing.reported_eq_symbols` — whose members are reported
  for a type, and that they are its own where no type has two entries.
* `Catalog.visited_listing` — a catalog with nothing filtered out visits what is reported.
* `Catalog.ofSource_listing` — the catalog of a listing names what is reported, and that is what the
  listing holds exactly where the members of each entry are named as those of the first entry for
  its type.

## Design

The names of the entries are compared, not the symbols: members of two entries that differ may still
share their identifiers, and then the catalog is that of the listing all the same.
-/

namespace SymbolDocs

/-! ### What a listing holds and what it reports -/

/-- The symbols of an entry: its type, and its own members in order. -/
def TypeListing.symbols (entry : TypeListing) : List Symbol :=
  .type entry.type :: entry.members.map .member

namespace SymbolListing

variable {listing : SymbolListing}

/-- The symbols that a listing holds: those of its entries in order. -/
def symbols (listing : SymbolListing) : List Symbol :=
  listing.types.flatMap TypeListing.symbols

/-- The symbols that a listing reports: the type of each entry in order, and behind it the members
that the listing answers with when it is asked for those of the type. -/
def reported (listing : SymbolListing) : List Symbol :=
  listing.types.flatMap fun entry =>
    .type entry.type :: (listing.membersOf entry.type).map .member

/-- **The members reported for a type are those of the first entry for it.** -/
theorem membersOf_first {before after : List TypeListing} {entry : TypeListing}
    (htypes : listing.types = before ++ entry :: after)
    (hfirst : ∀ earlier ∈ before, earlier.type ≠ entry.type) :
    listing.membersOf entry.type = entry.members := by
  have hbefore : before.find? (fun earlier => earlier.type = entry.type) = none :=
    List.find?_eq_none.mpr fun earlier hearlier => by simpa using hfirst earlier hearlier
  rw [membersOf, htypes, List.find?_append, hbefore, Option.none_or,
    List.find?_cons_of_pos (by simp)]

/-- The members reported for the type of an entry are those of an entry. -/
theorem exists_membersOf_eq {entry : TypeListing} (hentry : entry ∈ listing.types) :
    ∃ first ∈ listing.types, listing.membersOf entry.type = first.members := by
  have hfound : (listing.types.find? fun first => first.type = entry.type).isSome :=
    List.find?_isSome.mpr ⟨entry, hentry, by simp⟩
  obtain ⟨first, hfirst⟩ := Option.isSome_iff_exists.mp hfound
  exact ⟨first, List.mem_of_find?_eq_some hfirst, by rw [membersOf, hfirst]⟩

/-- The type of an entry is one of the symbols of the listing. -/
theorem type_mem_symbols {entry : TypeListing} (hentry : entry ∈ listing.types) :
    .type entry.type ∈ listing.symbols :=
  List.mem_flatMap.mpr ⟨entry, hentry, List.mem_cons_self⟩

/-- The members of an entry are symbols of the listing. -/
theorem member_mem_symbols {entry : TypeListing} {member : Member} (hentry : entry ∈ listing.types)
    (hmember : member ∈ entry.members) : .member member ∈ listing.symbols :=
  List.mem_flatMap.mpr ⟨entry, hentry, List.mem_cons_of_mem _ (List.mem_map_of_mem hmember)⟩

/-- A symbol that is reported is one that the listing holds. -/
theorem mem_symbols_of_mem_reported {symbol : Symbol} (h : symbol ∈ listing.reported) :
    symbol ∈ listing.symbols := by
  obtain ⟨entry, hentry, hsymbol⟩ := List.mem_flatMap.mp h
  obtain rfl | hsymbol := List.mem_cons.mp hsymbol
  · exact type_mem_symbols hentry
  · obtain ⟨member, hmember, rfl⟩ := List.mem_map.mp hsymbol
    obtain ⟨first, hfirst, hmembers⟩ := exists_membersOf_eq hentry
    exact member_mem_symbols hfirst (hmembers ▸ hmember)

/-- **What is reported is what the listing holds**, where no type has two entries. -/
theorem reported_eq_symbols (h : (listing.types.map TypeListing.type).Nodup) :
    listing.reported = listing.symbols := by
  refine List.flatMap_congr fun entry hentry => ?_
  obtain ⟨before, after, htypes⟩ := List.append_of_mem hentry
  rw [htypes, List.map_append, List.map_cons, List.nodup_append] at h
  rw [membersOf_first htypes fun earlier hearlier =>
    h.2.2 _ (List.mem_map_of_mem hearlier) _ List.mem_cons_self, TypeListing.symbols]

end SymbolListing

namespace Catalog

/-! ### The names of symbols -/

/-- The identifier of a symbol opens with its kind. -/
theorem kind_opens {symbol : Symbol} {identifier : Text}
    (h : Identifier.ofSymbol symbol = .ok identifier) : symbol.kind.opening <+: identifier := by
  cases symbol with
  | type type =>
    obtain ⟨name, -, hname⟩ := bind_eq_ok.mp h
    obtain rfl := Except.ok.inj hname
    exact List.prefix_append _ _
  | member member =>
    cases member with
    | method method =>
      obtain ⟨declaring, -, h⟩ := bind_eq_ok.mp h
      obtain ⟨parameters, -, h⟩ := bind_eq_ok.mp h
      obtain ⟨result, -, h⟩ := bind_eq_ok.mp h
      obtain rfl := Except.ok.inj h
      simp only [List.append_assoc]
      exact List.prefix_append _ _
    | constructor constructor =>
      obtain ⟨declaring, -, h⟩ := bind_eq_ok.mp h
      obtain ⟨parameters, -, h⟩ := bind_eq_ok.mp h
      obtain rfl := Except.ok.inj h
      simp only [List.append_assoc]
      exact List.prefix_append _ _
    | property member | field member | event member =>
      obtain rfl := Except.ok.inj h
      rw [Identifier.ofPlainMember, List.append_assoc]
      exact List.prefix_append _ _

/-- A symbol has an identifier. -/
def IsNamed (symbol : Symbol) : Prop :=
  ∃ identifier, Identifier.ofSymbol symbol = .ok identifier

/-- The identifier of a symbol; nothing where it has none. -/
def nameOf (symbol : Symbol) : Text :=
  (Identifier.ofSymbol symbol).toOption.getD []

/-- A symbol that has a name is identified by it. -/
theorem IsNamed.ofSymbol_eq {symbol : Symbol} (h : IsNamed symbol) :
    Identifier.ofSymbol symbol = .ok (nameOf symbol) := by
  obtain ⟨identifier, hidentifier⟩ := h
  rw [nameOf, hidentifier]
  rfl

/-- A member that has a name is identified by it. -/
theorem IsNamed.ofMember_eq {member : Member} (h : IsNamed (.member member)) :
    Identifier.ofMember member = .ok ((nameOf ∘ Symbol.member) member) :=
  h.ofSymbol_eq

/-- The name of a type opens as identifiers of types do. -/
theorem IsNamed.type_opens {type : TypeTerm} (h : IsNamed (.type type)) :
    SymbolKind.type.opening <+: nameOf (.type type) :=
  kind_opens h.ofSymbol_eq

/-- The name of a member does not open as identifiers of types do. -/
theorem IsNamed.member_not_opens {member : Member} (h : IsNamed (.member member)) :
    ¬ SymbolKind.type.opening <+: nameOf (.member member) := by
  rintro ⟨body, hbody⟩
  obtain ⟨own, hown⟩ := kind_opens h.ofSymbol_eq
  have hkind := (SymbolSignature.opening_append_inj (hown.trans hbody.symm)).1
  cases member <;> exact nomatch hkind

/-! ### The catalog -/

/-- Nothing is filtered out: all types, no entries for parameters, and local functions too. -/
def unfiltered : CatalogFilter :=
  { interfacesOnly := false, withParameters := false, skipLocalFunctions := false }

/-- **A catalog with nothing filtered out visits what is reported.** -/
theorem visited_listing (listing : SymbolListing) :
    visited unfiltered listing.source = listing.reported := by
  have hmembers : symbolsOf unfiltered listing.source =
      fun type => .type type :: (listing.membersOf type).map .member := by
    funext type
    simp [symbolsOf, unfiltered, SymbolListing.source]
  rw [visited, hmembers, SymbolListing.reported]
  simp [unfiltered, SymbolListing.source, List.flatMap_map]

/-- The entry of a named symbol. -/
def namedEntry (store : Store) (symbol : Symbol) : CatalogEntry :=
  { identifier := nameOf symbol
    kind := symbol.kind
    documentation := store.lookup (nameOf symbol) }

/-- A named symbol has one entry, where parameters have none. -/
theorem IsNamed.symbolEntries_eq {symbol : Symbol} (store : Store) (h : IsNamed symbol) :
    symbolEntries store unfiltered symbol = .ok [namedEntry store symbol] := by
  have hname := h.ofSymbol_eq
  cases symbol <;> simp [symbolEntries, memberEntries, entryOf, hname, unfiltered, namedEntry, bind,
    Except.bind, Except.map]

/-- The entries of named symbols, where parameters have none. -/
theorem collect_symbolEntries (store : Store) {symbols : List Symbol}
    (h : ∀ symbol ∈ symbols, IsNamed symbol) :
    collect (symbolEntries store unfiltered) symbols = .ok (symbols.map (namedEntry store)) := by
  rw [collect, mapM_eq_ok_map fun symbol hsymbol => (h symbol hsymbol).symbolEntries_eq store,
    Except.map, ← List.flatMap_def, ← List.map_eq_flatMap]

/-- What is reported is named as what the listing holds exactly where the members reported for the
type of each entry are named as its own. -/
theorem map_nameOf_reported_eq_iff {listing : SymbolListing}
    (hnamed : ∀ symbol ∈ listing.symbols, IsNamed symbol) :
    listing.reported.map nameOf = listing.symbols.map nameOf ↔
      ∀ entry ∈ listing.types, (listing.membersOf entry.type).mapM Identifier.ofMember =
        entry.members.mapM Identifier.ofMember := by
  have htype : ∀ entry ∈ listing.types, IsNamed (.type entry.type) := fun entry hentry =>
    hnamed _ (SymbolListing.type_mem_symbols hentry)
  have hown : ∀ entry ∈ listing.types, ∀ member ∈ entry.members, IsNamed (.member member) :=
    fun entry hentry member hmember => hnamed _ (SymbolListing.member_mem_symbols hentry hmember)
  have hfound : ∀ entry ∈ listing.types, ∀ member ∈ listing.membersOf entry.type,
      IsNamed (.member member) := by
    intro entry hentry
    obtain ⟨first, hfirst, hmembers⟩ := SymbolListing.exists_membersOf_eq hentry
    rw [hmembers]
    exact hown first hfirst
  have hheading : ∀ entry ∈ listing.types,
      ¬ ¬ SymbolKind.type.opening <+: nameOf (.type entry.type) :=
    fun entry hentry => not_not.mpr (htype entry hentry).type_opens
  have hmembers : ∀ members : List Member, (∀ member ∈ members, IsNamed (.member member)) →
      ∀ name ∈ members.map (nameOf ∘ Symbol.member), ¬ SymbolKind.type.opening <+: name :=
    fun members h => List.forall_mem_map.mpr fun member hmember =>
      (h member hmember).member_not_opens
  have hcompare := Text.flatMap_cons_inj (P := fun name => ¬ SymbolKind.type.opening <+: name)
    hheading (fun entry hentry => hmembers _ (hfound entry hentry))
    (fun entry hentry => hmembers _ (hown entry hentry))
  simp only [SymbolListing.reported, SymbolListing.symbols, TypeListing.symbols, List.map_flatMap,
    List.map_cons, List.map_map]
  refine hcompare.trans (forall₂_congr fun entry hentry => ?_)
  rw [mapM_eq_ok_map fun member hmember => (hfound entry hentry member hmember).ofMember_eq,
    mapM_eq_ok_map fun member hmember => (hown entry hentry member hmember).ofMember_eq,
    Except.ok.injEq]

/-- **The catalog of a listing with nothing filtered out.** Where the documentation of the unit can
be loaded and all symbols that the listing holds have an identifier, the catalog names what the
listing reports, and nothing else. That is what the listing holds exactly where the members reported
for the type of each entry are named as its own are; so it is where no type has two entries.

**Proof sketch.** All visited symbols are held by the listing, so the catalog succeeds. Where its
names are also those of the symbols held, two lists of names are equal that consist of types, each
followed by its members. No identifier of a member opens as that of a type does, so the lists are
equal type by type. -/
theorem ofSource_listing (store : Store) (files : FileView) (listing : SymbolListing)
    {loaded : Store}
    (hload : store.loadForOwner files listing.source.owner = (.ok (), loaded))
    (hnamed : ∀ symbol ∈ listing.symbols, IsNamed symbol) :
    ∃ entries, (ofSource store files listing.source unfiltered).1 = .ok entries ∧
      listing.reported.mapM Identifier.ofSymbol = .ok (entries.map CatalogEntry.identifier) ∧
      (listing.symbols.mapM Identifier.ofSymbol = .ok (entries.map CatalogEntry.identifier) ↔
        ∀ entry ∈ listing.types, (listing.membersOf entry.type).mapM Identifier.ofMember =
          entry.members.mapM Identifier.ofMember) ∧
      ((listing.types.map TypeListing.type).Nodup →
        listing.symbols.mapM Identifier.ofSymbol =
          .ok (entries.map CatalogEntry.identifier)) := by
  have hreported : ∀ symbol ∈ listing.reported, IsNamed symbol := fun symbol hsymbol =>
    hnamed symbol (SymbolListing.mem_symbols_of_mem_reported hsymbol)
  have hreportedNames := mapM_eq_ok_map fun symbol hsymbol => (hreported symbol hsymbol).ofSymbol_eq
  have hheldNames := mapM_eq_ok_map fun symbol hsymbol => (hnamed symbol hsymbol).ofSymbol_eq
  have hcatalog : (ofSource store files listing.source unfiltered).1 =
      .ok (listing.reported.map (namedEntry loaded)) := by
    rw [ofSource_eq_collect hload, visited_listing, collect_symbolEntries loaded hreported]
    rfl
  have hnames : (listing.reported.map (namedEntry loaded)).map CatalogEntry.identifier =
      listing.reported.map nameOf := List.map_map
  refine ⟨_, hcatalog, by rw [hreportedNames, hnames], ?_, fun hnodup => ?_⟩
  · rw [hheldNames, hnames, Except.ok.injEq, eq_comm]
    exact map_nameOf_reported_eq_iff hnamed
  · rw [← SymbolListing.reported_eq_symbols hnodup, hreportedNames, hnames]

/-- No files. -/
def noFiles : FileView where
  workingDirectory := Path.ofText "/work".toList
  isFile _ := false
  read _ := .error .notFound

/-- A class with a field, and a class without members. -/
def plainListing : SymbolListing where
  owner := "Sample.dll".toList
  types :=
    let box := TypeTerm.plain [] "Box".toList
    [⟨box, [.field ⟨"size".toList, box⟩]⟩, ⟨.plain [] "Lid".toList, []⟩]

/-- The catalog of a listing without two entries for a type names what the listing holds. -/
theorem ofSource_plainListing :
    ∃ entries, (ofSource (.empty {}) noFiles plainListing.source unfiltered).1 = .ok entries ∧
      entries.map CatalogEntry.identifier =
        ["T:Box".toList, "F:Box.size".toList, "T:Lid".toList] := by
  have hnamed : ∀ symbol ∈ plainListing.symbols, IsNamed symbol := by
    show ∀ symbol ∈ [_, _, _], _
    exact List.forall_mem_cons.mpr ⟨⟨_, rfl⟩, List.forall_mem_cons.mpr ⟨⟨_, rfl⟩,
      List.forall_mem_cons.mpr ⟨⟨_, rfl⟩, nofun⟩⟩⟩
  obtain ⟨entries, hentries, -, -, hheld⟩ :=
    ofSource_listing (.empty {}) noFiles plainListing rfl hnamed
  exact ⟨entries, hentries, (Except.ok.inj (hheld (by decide))).symm⟩

/-- Two entries for one class, with a field each. -/
def splitListing : SymbolListing where
  owner := "Sample.dll".toList
  types :=
    let box := TypeTerm.plain [] "Box".toList
    [⟨box, [.field ⟨"size".toList, box⟩]⟩, ⟨box, [.field ⟨"lid".toList, box⟩]⟩]

/-- **Members are lost and repeated** where a type has two entries: the documentation can be loaded
and all symbols have an identifier, and the catalog names the member of the first entry twice and
that of the second never. -/
theorem splitListing_member_lost :
    ((Store.empty {}).loadForOwner noFiles splitListing.source.owner).1 = .ok () ∧
      splitListing.symbols.mapM Identifier.ofSymbol =
        .ok ["T:Box".toList, "F:Box.size".toList, "T:Box".toList, "F:Box.lid".toList] ∧
      ((ofSource (.empty {}) noFiles splitListing.source unfiltered).1.map fun entries =>
          entries.map CatalogEntry.identifier) =
        .ok ["T:Box".toList, "F:Box.size".toList, "T:Box".toList, "F:Box.size".toList] :=
  ⟨rfl, rfl, rfl⟩

end Catalog

end SymbolDocs
