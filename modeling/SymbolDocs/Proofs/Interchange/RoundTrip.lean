import SymbolDocs.Interchange.Listings
import SymbolDocs.Interchange.Settings
import SymbolDocs.Proofs.Interchange.Members
set_option autoImplicit false

/-!
# Reading written values back

Every type, member, listing, catalog entry and settings of a store is parsed back from its written
form, where that nests no more levels than a text may.

## Main results

* `Interchange.decodes_listing`, `Interchange.decodes_entry`, `Interchange.decodes_storeSettings` —
  the values are decoded.
* `Interchange.parse_written` — the values are parsed back.

## Design

A round trip is proved in two halves. Any written value is read back from its text, which knows
nothing of what the value stands for; and what a value stands for is decoded from it wherever it
comes from, which knows nothing of texts but the levels they may nest. The parts of a shape and of a
member are decoded from a value that has been taken up as a whole before, so that their levels are
counted only once.
-/

namespace SymbolDocs

namespace Interchange

open Json

/-! ### Listings -/

/-- An entry of a listing is written as JSON that can be read back. -/
theorem written_ofTypeListing (entry : TypeListing) : Written (ofTypeListing entry) := by
  apply written_record
  simp only [List.forall_mem_cons]
  exact ⟨written_ofType _, .array (List.forall_mem_map.mpr fun member _ => written_ofMember member),
    List.forall_mem_nil _⟩

/-- A listing is written as JSON that can be read back. -/
theorem written_ofListing (unit : SymbolListing) : Written (ofListing unit) := by
  apply written_record
  simp only [List.forall_mem_cons]
  exact ⟨.string _, .array (List.forall_mem_map.mpr fun entry _ => written_ofTypeListing entry),
    List.forall_mem_nil _⟩

/-- An entry of a listing is decoded from what is written for it. -/
theorem decodes_typeListing (e : TypeListing) : Decodes typeListing (ofTypeListing e) e := by
  refine decodes_record ⟨some e.type, some e.members⟩ (fun inner hadmits => ?_) fun _ => rfl
  simp only [List.map_cons, List.forall_mem_cons] at hadmits
  obtain ⟨htype, hmembers, -⟩ := hadmits
  have htype := decodes_type e.type inner htype
  have hmembers := decodes_list (fun m _ => decodes_member m) inner hmembers
  simp [TypeListingDraft.put, fill, htype, hmembers, bind, Except.bind, Except.map, pure,
    Except.pure]

/-- A listing is decoded from what is written for it. -/
theorem decodes_listing (unit : SymbolListing) : Decodes listing (ofListing unit) unit := by
  refine decodes_record ⟨some unit.owner, some unit.types⟩ (fun inner hadmits => ?_) fun _ => rfl
  simp only [List.map_cons, List.forall_mem_cons] at hadmits
  obtain ⟨-, htypes, -⟩ := hadmits
  have htypes := decodes_list (fun e _ => decodes_typeListing e) inner htypes
  simp [ListingDraft.put, fill, htypes, bind, Except.bind, Except.map, pure, Except.pure]

/-! ### Catalog entries -/

/-- A kind of symbols is decoded from what is written for it. -/
theorem kind_ofKind (origin : Origin) (k : SymbolKind) : kind origin (ofKind k) = .ok k := by
  cases k <;> cases origin <;> rfl

/-- A text that may be missing is decoded from what is written for it. -/
theorem optional_text (origin : Origin) (value : Option Text) :
    Json.optional text origin (ofOption (value.map .string)) = .ok value := by
  cases value <;> rfl

/-- An entry of a catalog is written as JSON that can be read back. -/
theorem written_ofEntry (entry : CatalogEntry) : Written (ofEntry entry) := by
  have hkind : Written (ofKind entry.kind) := by cases entry.kind <;> exact .string _
  have hdocumentation : Written (ofOption (entry.documentation.map .string)) :=
    written_ofOption (by simp [Written.string])
  apply written_record
  cases entry.parameter <;> simp [Written.string, hkind, hdocumentation]

/-- An entry is decoded from its value, whether or not that holds a parameter. -/
theorem decodes_entry (e : CatalogEntry) : Decodes entry (ofEntry e) e := by
  obtain ⟨identifier, kind, parameter, documentation⟩ := e
  refine decodes_record ⟨some identifier, some kind, parameter.map some, some documentation⟩
    (fun inner _ => ?_) fun _ => ?_
  · have hkind := kind_ofKind inner kind
    have hdocumentation := optional_text inner documentation
    cases parameter with
    | none =>
      simp [EntryDraft.put, fill, hkind, hdocumentation, bind, Except.bind, Except.map, pure,
        Except.pure]
    | some name =>
      have hparameter : Json.optional text inner (.string name) = .ok (some name) := rfl
      simp [EntryDraft.put, fill, hkind, hparameter, hdocumentation, bind, Except.bind, Except.map,
        pure, Except.pure]
  · cases parameter <;> rfl

/-! ### Settings of a store -/

/-- Settings are written as JSON that can be read back. -/
theorem written_ofStoreSettings (settings : StoreSettings) :
    Written (ofStoreSettings settings) := by
  apply written_record
  simp only [List.forall_mem_cons]
  exact ⟨.string _, .string _, .boolean _, List.forall_mem_nil _⟩

/-- Settings are decoded from what is written for them. -/
theorem decodes_storeSettings (s : StoreSettings) :
    Decodes storeSettings (ofStoreSettings s) s := by
  refine decodes_record ⟨some s.extension, some s.memberElement, some s.strictOwners⟩
    (fun inner _ => ?_) fun _ => rfl
  simp [StoreSettingsDraft.put, fill, bind, Except.bind, Except.map, pure, Except.pure]

/-! ### Texts -/

/-- **Everything that is written is parsed back**, unless its written form nests more than 127
arrays and objects.

**Proof sketch.** The written form of each of the values is read as the value itself, since it holds
no floating-point number. The value is decoded, by induction on the type terms in it, and below the
levels that a text may nest wherever it does not nest more of them. -/
theorem parse_written :
    (∀ t : TypeTerm, (ofType t).depth ≤ 127 → parse type (ofType t).render = .ok t) ∧
    (∀ m : Member, (ofMember m).depth ≤ 127 → parse member (ofMember m).render = .ok m) ∧
    (∀ unit : SymbolListing, (ofListing unit).depth ≤ 127 →
      parse listing (ofListing unit).render = .ok unit) ∧
    (∀ e : CatalogEntry, (ofEntry e).depth ≤ 127 → parse entry (ofEntry e).render = .ok e) ∧
    ∀ s : StoreSettings, (ofStoreSettings s).depth ≤ 127 →
      parse storeSettings (ofStoreSettings s).render = .ok s :=
  ⟨fun t => (decodes_type t).parse_render (written_ofType t),
    fun m => (decodes_member m).parse_render (written_ofMember m),
    fun unit => (decodes_listing unit).parse_render (written_ofListing unit),
    fun e => (decodes_entry e).parse_render (written_ofEntry e),
    fun s => (decodes_storeSettings s).parse_render (written_ofStoreSettings s)⟩

/-- A generic type whose namespace needs escapes. -/
def escapedType : TypeTerm :=
  .named { name := "Outer`1".toList, space := "\u0007\t∀".toList } none ["T".toList]
    [.plain [] "Int32".toList]

/-- A method of a type nested in that type, which takes an array of the highest rank over pointers
to a generic parameter. -/
def escapedMember : Member :=
  .method {
    name := "Fill".toList
    declaring :=
      .named { name := "Inner".toList, isInterface := true } (some escapedType) [] []
    generics := ["U".toList]
    parameters :=
      [⟨"items".toList, .refTo (.array { name := "T*[]".toList }
        (.pointerTo (.parameter "T".toList)) 4294967295)⟩] }

/-- A listing of the type and of the method, of a unit whose path needs escapes. -/
def escapedListing : SymbolListing where
  owner := "/opt/\"my\" lib\\Sample.dll".toList
  types := [⟨escapedMember.declaring, [escapedMember]⟩, ⟨escapedType, []⟩]

set_option maxRecDepth 4000 in
/-- The type, the method and the listing are parsed back, and so are an entry of a catalog that has
no parameter and the settings of a store. -/
theorem parse_written_escapedListing :
    (ofListing escapedListing).depth = 15 ∧
      parse type (ofType escapedType).render = .ok escapedType ∧
      parse member (ofMember escapedMember).render = .ok escapedMember ∧
      parse listing (ofListing escapedListing).render = .ok escapedListing ∧
      parse entry (ofEntry { identifier := "E:\n".toList, kind := .event }).render =
        .ok { identifier := "E:\n".toList, kind := .event } ∧
      parse storeSettings (ofStoreSettings { memberElement := ['"'] }).render =
        .ok { memberElement := ['"'] } :=
  ⟨by decide, parse_written.1 escapedType (by decide), parse_written.2.1 escapedMember (by decide),
    parse_written.2.2.1 escapedListing (by decide), parse_written.2.2.2.1 _ (by decide),
    parse_written.2.2.2.2 _ (by decide)⟩

end Interchange

end SymbolDocs
