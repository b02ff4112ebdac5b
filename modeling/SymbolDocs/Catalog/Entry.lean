import SymbolDocs.Member
set_option autoImplicit false

/-!
# Catalog entries

## Main definitions

* `CatalogEntry` — a documented symbol, or one parameter of it.
-/

namespace SymbolDocs

/-- A symbol, or one parameter of a member, with its documentation. -/
structure CatalogEntry where
  /-- The identifier of the symbol. -/
  identifier : Text
  /-- The kind of the symbol. -/
  kind : SymbolKind
  /-- The parameter that the entry documents, where it documents only one. -/
  parameter : Option Text := none
  /-- The documentation, if there is any. -/
  documentation : Option Text := none
  deriving DecidableEq, Repr

end SymbolDocs
