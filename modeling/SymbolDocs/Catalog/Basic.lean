import SymbolDocs.Catalog.Entry
import SymbolDocs.Catalog.Source
import SymbolDocs.Identifier.LocalFunction
import SymbolDocs.Store.Query
set_option autoImplicit false

/-!
# Catalogs

A catalog pairs every symbol of a source with its documentation.

## Main definitions

* `CatalogFilter` — which symbols a catalog holds.
* `Catalog.ofSource` — the catalog of a source.

## Design

The symbols stand in the order of the source: each type, then its members. Where parameters are
wanted, an entry for each parameter follows its member. The first symbol without an identifier makes
the whole catalog fail; a symbol that is filtered out cannot.
-/

namespace SymbolDocs

/-- Which symbols a catalog holds. -/
structure CatalogFilter where
  /-- Whether only interfaces and their members are held. -/
  interfacesOnly : Bool := false
  /-- Whether each parameter of a member has an entry of its own. -/
  withParameters : Bool := false
  /-- Whether local functions are left out. -/
  skipLocalFunctions : Bool := true
  deriving DecidableEq, Repr

namespace Catalog

/-- The entry of a symbol. -/
def entryOf (store : Store) (symbol : Symbol) : Except IdentifierError CatalogEntry := do
  let identifier ← Identifier.ofSymbol symbol
  .ok { identifier, kind := symbol.kind, documentation := store.lookup identifier }

/-- The entries of the parameters of a member, after the entry of the member. -/
def parameterEntries (entry : CatalogEntry) (member : Member) : List CatalogEntry :=
  member.parameters.map fun parameter =>
    { entry with
      parameter := some parameter.name
      documentation := entry.documentation.bind (Markup.parameterNote? parameter.name) }

/-- The entries of a member: its own, and those of its parameters where they are wanted. -/
def memberEntries (store : Store) (filter : CatalogFilter) (member : Member) :
    Except IdentifierError (List CatalogEntry) := do
  let entry ← entryOf store (.member member)
  .ok (entry :: if filter.withParameters then parameterEntries entry member else [])

/-- Whether a member is held. -/
def holdsMember (filter : CatalogFilter) (member : Member) : Bool :=
  !(filter.skipLocalFunctions && isLocalFunction member.name)

/-- Whether a type is held. -/
def holdsType (filter : CatalogFilter) (type : TypeTerm) : Bool :=
  !filter.interfacesOnly || type.isInterface

/-- The entries of a type and of its members. -/
def typeEntries (store : Store) (filter : CatalogFilter) (source : SymbolSource) (type : TypeTerm) :
    Except IdentifierError (List CatalogEntry) := do
  let entry ← entryOf store (.type type)
  let members ← ((source.membersOf type).filter (holdsMember filter)).mapM
    (memberEntries store filter)
  .ok (entry :: members.flatten)

/-- The entries of all types that are held. -/
def entries (store : Store) (filter : CatalogFilter) (source : SymbolSource) :
    Except IdentifierError (List CatalogEntry) := do
  let types ← (source.exported.filter (holdsType filter)).mapM (typeEntries store filter source)
  .ok types.flatten

/-- The catalog of a source, after the documentation of its unit has been loaded, and the store left
behind. -/
def ofSource (store : Store) (files : FileView) (source : SymbolSource) (filter : CatalogFilter) :
    Except QueryError (List CatalogEntry) × Store :=
  match store.loadForOwner files source.owner with
  | (.error error, left) => (.error (.load error), left)
  | (.ok (), loaded) => ((entries loaded filter source).mapError .identifier, loaded)

end Catalog

end SymbolDocs
