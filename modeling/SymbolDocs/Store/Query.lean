import SymbolDocs.Store.Load
import SymbolDocs.Identifier.Basic
import SymbolDocs.Markup.ParameterNote
set_option autoImplicit false

/-!
# Documentation of symbols

## Main definitions

* `Store.documentation`, `Store.memberDocumentation` — the documentation of a symbol or member.
* `Store.parameterDocumentation` — the note on a parameter of a member.
* `Store.documentationForOwner` — the documentation of a symbol, after the documentation of its unit
  has been loaded.
-/

namespace SymbolDocs

/-- Why the documentation of a symbol cannot be given. -/
inductive QueryError where
  /-- The symbol has no identifier. -/
  | identifier (error : IdentifierError)
  /-- The documentation of the unit cannot be loaded. -/
  | load (error : LoadError)
  deriving DecidableEq, Repr

namespace Store

/-- The documentation of a symbol. -/
def documentation (store : Store) (symbol : Symbol) : Except IdentifierError (Option Text) := do
  let identifier ← Identifier.ofSymbol symbol
  .ok (store.lookup identifier)

/-- The documentation of a member. -/
def memberDocumentation (store : Store) (member : Member) :
    Except IdentifierError (Option Text) := do
  let identifier ← Identifier.ofMember member
  .ok (store.lookup identifier)

/-- The note on a parameter in the documentation of a member. -/
def parameterDocumentation (store : Store) (member : Member) (parameter : Text) :
    Except IdentifierError (Option Text) := do
  let body ← store.memberDocumentation member
  .ok (body.bind (Markup.parameterNote? parameter))

/-- The documentation of a symbol, after the documentation of its unit has been loaded, and the
store left behind. -/
def documentationForOwner (store : Store) (files : FileView) (owner : Path) (symbol : Symbol) :
    Except QueryError (Option Text) × Store :=
  match store.loadForOwner files owner with
  | (.error error, left) => (.error (.load error), left)
  | (.ok (), loaded) => ((loaded.documentation symbol).mapError .identifier, loaded)

end Store

end SymbolDocs
