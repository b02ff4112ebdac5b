import SymbolDocs.Text.Basic
set_option autoImplicit false

/-!
# Entities

The five entities of attribute values stand for characters that markup uses itself.

## Main definitions

* `Markup.decodeEntities` — the text with every entity replaced by its character.

## Design

The entities are decoded one after the other. The ampersand comes last, so that no entity arises
from a decoded one.
-/

namespace SymbolDocs

namespace Markup

/-- The entities with their characters in the order in which they are decoded. -/
def entities : List (String × Char) :=
  [("&lt;", '<'), ("&gt;", '>'), ("&quot;", '"'), ("&apos;", '\x27'), ("&amp;", '&')]

/-- The text with every entity replaced by its character. -/
def decodeEntities (text : Text) : Text :=
  entities.foldl (fun text entity => Text.replaceAll entity.1.toList [entity.2] text) text

end Markup

end SymbolDocs
