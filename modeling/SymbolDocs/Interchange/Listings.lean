import SymbolDocs.Interchange.Members
import SymbolDocs.Catalog.Entry
import SymbolDocs.Catalog.Source
set_option autoImplicit false

/-!
# Listings and catalog entries as JSON values

## Main definitions

* `Interchange.ofTypeListing`, `Interchange.ofListing`, `Interchange.ofEntry` — the values.
* `Interchange.typeListing`, `Interchange.listing`, `Interchange.entry` — the decoders.
-/

namespace SymbolDocs

namespace Interchange

open Json

/-! ### Encoding -/

/-- The value of the listing of one type. -/
def ofTypeListing (listing : TypeListing) : Json :=
  record [("type", ofType listing.type), ("members", .array (listing.members.map ofMember))]

/-- The value of a listing. -/
def ofListing (listing : SymbolListing) : Json :=
  record [("owner", .string listing.owner), ("types", .array (listing.types.map ofTypeListing))]

/-- The value of a catalog entry; the parameter is left out where there is none. -/
def ofEntry (entry : CatalogEntry) : Json :=
  record ([("identifier", .string entry.identifier), ("kind", ofKind entry.kind)] ++
    (match entry.parameter with
      | none => []
      | some name => [("parameter", .string name)]) ++
    [("documentation", ofOption (entry.documentation.map .string))])

/-! ### Decoding -/

/-- The record of the listing of one type. -/
def typeListingForm : RecordForm :=
  ⟨"TypeEntry", ["type", "members"]⟩

/-- The fields of the listing of one type met so far. -/
structure TypeListingDraft where
  /-- The type. -/
  type : Option TypeTerm := none
  /-- The members. -/
  members : Option (List Member) := none

/-- One more field of the listing of one type. -/
def TypeListingDraft.put (origin : Origin) (draft : TypeListingDraft) (field : Text × Json) :
    Except DecodeError TypeListingDraft :=
  if field.1 = "type".toList then do
    let type ← fill field.1 draft.type fun _ => Interchange.type origin field.2
    .ok { draft with type }
  else if field.1 = "members".toList then do
    let members ← fill field.1 draft.members fun _ => list member origin field.2
    .ok { draft with members }
  else do
    passOver field.2
    .ok draft

/-- The decoder of listings of one type. -/
def typeListing : Decoder TypeListing := fun origin json => do
  let entries ← typeListingForm.entries origin json
  let draft ← entries.fields.foldlM (TypeListingDraft.put entries.origin) {}
  let type ← typeListingForm.require entries.surplus "type" draft.type
  RecordForm.close typeListingForm.fields.length entries.origin entries.surplus
  .ok { type, members := draft.members.getD [] }

/-- The record of a listing. -/
def listingForm : RecordForm :=
  ⟨"SymbolDump", ["owner", "types"]⟩

/-- The fields of a listing met so far. -/
structure ListingDraft where
  /-- The path of the unit. -/
  owner : Option Text := none
  /-- The types. -/
  types : Option (List TypeListing) := none

/-- One more field of a listing. -/
def ListingDraft.put (origin : Origin) (draft : ListingDraft) (field : Text × Json) :
    Except DecodeError ListingDraft :=
  if field.1 = "owner".toList then do
    let owner ← fill field.1 draft.owner fun _ => path origin field.2
    .ok { draft with owner }
  else if field.1 = "types".toList then do
    let types ← fill field.1 draft.types fun _ => list typeListing origin field.2
    .ok { draft with types }
  else do
    passOver field.2
    .ok draft

/-- The decoder of listings. -/
def listing : Decoder SymbolListing := fun origin json => do
  let entries ← listingForm.entries origin json
  let draft ← entries.fields.foldlM (ListingDraft.put entries.origin) {}
  let owner ← listingForm.require entries.surplus "owner" draft.owner
  RecordForm.close listingForm.fields.length entries.origin entries.surplus
  .ok { owner, types := draft.types.getD [] }

/-- The record of a catalog entry. -/
def entryForm : RecordForm :=
  ⟨"DocumentedSymbol", ["identifier", "kind", "parameter", "documentation"]⟩

/-- The fields of a catalog entry met so far. -/
structure EntryDraft where
  /-- The identifier. -/
  identifier : Option Text := none
  /-- The kind. -/
  kind : Option SymbolKind := none
  /-- The parameter. -/
  parameter : Option (Option Text) := none
  /-- The documentation. -/
  documentation : Option (Option Text) := none

/-- One more field of a catalog entry. -/
def EntryDraft.put (origin : Origin) (draft : EntryDraft) (field : Text × Json) :
    Except DecodeError EntryDraft :=
  if field.1 = "identifier".toList then do
    let identifier ← fill field.1 draft.identifier fun _ => text origin field.2
    .ok { draft with identifier }
  else if field.1 = "kind".toList then do
    let kind ← fill field.1 draft.kind fun _ => Interchange.kind origin field.2
    .ok { draft with kind }
  else if field.1 = "parameter".toList then do
    let parameter ← fill field.1 draft.parameter fun _ => optional text origin field.2
    .ok { draft with parameter }
  else if field.1 = "documentation".toList then do
    let documentation ← fill field.1 draft.documentation fun _ => optional text origin field.2
    .ok { draft with documentation }
  else do
    passOver field.2
    .ok draft

/-- The decoder of catalog entries. In an array only the parameter may be missing. -/
def entry : Decoder CatalogEntry := fun origin json => do
  let entries ← entryForm.entries origin json
  let draft ← entries.fields.foldlM (EntryDraft.put entries.origin) {}
  let identifier ← entryForm.require entries.surplus "identifier" draft.identifier
  let kind ← entryForm.require entries.surplus "kind" draft.kind
  let documentation ←
    if entries.surplus.isNone then .ok (draft.documentation.getD none)
    else entryForm.require entries.surplus "documentation" draft.documentation
  RecordForm.close entryForm.fields.length entries.origin entries.surplus
  .ok { identifier, kind, parameter := draft.parameter.getD none, documentation }

end Interchange

end SymbolDocs
