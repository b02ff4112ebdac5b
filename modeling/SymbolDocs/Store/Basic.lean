import SymbolDocs.Markup.Scan
import SymbolDocs.Path
import SymbolDocs.Settings
import Std.Data.TreeMap
set_option autoImplicit false

/-!
# Documentation stores

A store holds the bodies of documented members by their names, and remembers which sources it has
taken in and for which compiled units it has looked for documentation.

## Main definitions

* `Store` — the state of a store.
* `Store.empty` — a store without documentation.
* `Store.lookup`, `Store.contains`, `Store.size` — what a store holds.
* `Store.clear` — the store as it was at first.

## Main results

* `Store.lookup_insert` — a member inserted later replaces one of the same name.
-/

namespace SymbolDocs

/-- The state of a documentation store. -/
structure Store where
  /-- The settings. -/
  settings : StoreSettings
  /-- The keys of the sources taken in. -/
  sources : List Text
  /-- The components of the units for which documentation has been looked for. -/
  attempted : List (List Path)
  /-- The number of sources taken in. -/
  parses : Nat
  /-- The bodies of the members by their names. -/
  bodies : Std.TreeMap Text Text

namespace Store

/-- A store without documentation. -/
def empty (settings : StoreSettings) : Store :=
  { settings, sources := [], attempted := [], parses := 0, bodies := ∅ }

/-- The store as it was at first. -/
def clear (store : Store) : Store :=
  empty store.settings

/-! ### What a store holds -/

/-- The body of a member. -/
def lookup (store : Store) (name : Text) : Option Text :=
  store.bodies[name]?

/-- Whether a member is documented. -/
def contains (store : Store) (name : Text) : Bool :=
  store.bodies.contains name

/-- The number of documented members. -/
def size (store : Store) : Nat :=
  store.bodies.size

/-- The store with one more member; one of the same name is replaced. -/
def insert (store : Store) (block : Markup.MemberBlock) : Store :=
  { store with bodies := store.bodies.insert block.name block.body }

/-- The store with some members inserted in order. -/
def insertAll (store : Store) (blocks : List Markup.MemberBlock) : Store :=
  blocks.foldl insert store

/-- **A member inserted later replaces one of the same name**; all others stay. -/
theorem lookup_insert (store : Store) (block : Markup.MemberBlock) (name : Text) :
    (store.insert block).lookup name =
      if block.name = name then some block.body else store.lookup name := by
  simp [insert, lookup, Std.TreeMap.getElem?_insert]

/-- A member is documented exactly when its body can be looked up. -/
theorem contains_eq_isSome_lookup (store : Store) (name : Text) :
    store.contains name = (store.lookup name).isSome := by
  simp [contains, lookup]

end Store

end SymbolDocs
