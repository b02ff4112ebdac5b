import SymbolDocs.Member
import SymbolDocs.Path
set_option autoImplicit false

/-!
# Symbol sources

A symbol source knows the symbols of one compiled unit. A symbol listing is a source that lists them
type by type.

## Main definitions

* `SymbolSource` — any source of symbols.
* `TypeListing`, `SymbolListing` — the symbols of a unit, type by type.
* `SymbolListing.source` — a listing as a source.

## Design

A source is asked for the members of a type by the type itself. A listing answers with the members
of the first entry whose type is equal, so that equal types share the members of the first.

A listing is written down as a text, and so is the path of its unit. Other sources may have units
with any path.
-/

namespace SymbolDocs

/-- A source of the symbols of one compiled unit. -/
structure SymbolSource where
  /-- The path of the compiled unit. -/
  owner : Path
  /-- The exported types in the order in which they are reported. -/
  exported : List TypeTerm
  /-- The members declared on a type. -/
  membersOf : TypeTerm → List Member

/-- A type and the members it declares. -/
structure TypeListing where
  /-- The type. -/
  type : TypeTerm
  /-- The members it declares. -/
  members : List Member := []
  deriving DecidableEq, Repr

/-- The symbols of a compiled unit, type by type. -/
structure SymbolListing where
  /-- The text of the path of the compiled unit. -/
  owner : Text
  /-- The types with their members. -/
  types : List TypeListing := []
  deriving DecidableEq, Repr

namespace SymbolListing

/-- The members of the first entry for a type. -/
def membersOf (listing : SymbolListing) (type : TypeTerm) : List Member :=
  match listing.types.find? fun entry => entry.type = type with
  | some entry => entry.members
  | none => []

/-- A listing as a source of symbols. -/
def source (listing : SymbolListing) : SymbolSource :=
  { owner := Path.ofText listing.owner
    exported := listing.types.map TypeListing.type
    membersOf := listing.membersOf }

end SymbolListing

end SymbolDocs
