import SymbolDocs.Json.Decode
set_option autoImplicit false

/-!
# Decoding texts

A text is decoded by reading one value and decoding it. Nothing but blanks may follow the value.

## Main definitions

* `Json.parse` — the decoding of a whole text.
-/

namespace SymbolDocs

namespace Json

/-- The decoding of a whole text. Of a fault of the text and a value that does not fit, the one that
stands first is reported. -/
def parse {α : Type} (decode : Decoder α) (source : Text) : Except DecodeError α := do
  let (json, rest) := read source
  let result ← decode .document json
  match skipBlanks rest with
  | [] => .ok result
  | _ => .error (.text .malformed)

end Json

end SymbolDocs
