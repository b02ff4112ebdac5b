import SymbolDocs.Json.Number
import SymbolDocs.Text.Basic
set_option autoImplicit false

/-!
# Values of the interchange format

A JSON value, and its compact written form.

## Main definitions

* `Json` — the values, with a marker for the place where a text stops being JSON.
* `Json.render` — the compact written form of a value.
* `Json.TextFault` — why a text is not JSON.

## Design

A text that is not JSON is read up to the place where it fails, and the value read keeps the failure
there. A reader of the value meets either an entry that does not fit or the failure, whichever comes
first in the text. Two readings of the rest of a text can differ: where a value is only passed over,
a literal need not stand for a value.
-/

namespace SymbolDocs

namespace Json

/-- Why a text is not JSON. -/
inductive TextFault where
  /-- A character that cannot stand where it does. -/
  | malformed
  /-- The text ends too early. -/
  | ended
  /-- The text ends within a number or a word. -/
  | cut
  deriving DecidableEq, Repr

end Json

/-- A JSON value. -/
inductive Json where
  /-- The null value. -/
  | null
  /-- A truth value. -/
  | boolean (value : Bool)
  /-- A number. -/
  | number (value : JsonNumber)
  /-- A string. -/
  | string (value : Text)
  /-- An array. -/
  | array (items : List Json)
  /-- An object: its fields in order. -/
  | object (fields : List (Text × Json))
  /-- A literal that is well formed but stands for no value. -/
  | valueless
  /-- The place of a key that stands for no text, or of a key that is missing, with the fault met by
  one who needs the key and the fault, if any, met by one who passes over it. Where there is none,
  the next field is the one the key belongs to. -/
  | keyless (needed : Json.TextFault) (passed : Option Json.TextFault)
  /-- The place after a value where an array or object neither goes on nor ends. -/
  | unclosed (fault : Json.TextFault)
  /-- The place where the text stops being JSON, with the fault met by one who needs the value here
  and the fault met by one who passes over it. -/
  | broken (needed passed : Json.TextFault)
  deriving Repr

namespace Json

/-! ### The written form -/

/-- A hexadecimal digit in lower case. -/
def hexDigit (n : Nat) : Char :=
  Nat.digitChar (n % 16)

/-- A character inside a string literal. Only the quote, the backslash and the characters below the
space are escaped. -/
def escapeChar (c : Char) : Text :=
  if c = '"' then "\\\"".toList
  else if c = '\\' then "\\\\".toList
  else if c = '\x08' then "\\b".toList
  else if c = '\x0c' then "\\f".toList
  else if c = '\n' then "\\n".toList
  else if c = '\r' then "\\r".toList
  else if c = '\t' then "\\t".toList
  else if c.toNat < 0x20 then "\\u00".toList ++ [hexDigit (c.toNat / 16), hexDigit c.toNat]
  else [c]

/-- A string literal. -/
def quote (text : Text) : Text :=
  '"' :: text.flatMap escapeChar ++ ['"']

/-- Texts separated by commas between two delimiters. -/
def enclose (opening closing : Char) (parts : List Text) : Text :=
  opening :: List.intercalate [','] parts ++ [closing]

mutual

/-- The compact written form of a value; a place without a value has none. -/
def render : Json → Text
  | .null => "null".toList
  | .boolean true => "true".toList
  | .boolean false => "false".toList
  | .number value => value.render
  | .string value => quote value
  | .array items => enclose '[' ']' (renderItems items)
  | .object fields => enclose '\x7b' '\x7d' (renderFields fields)
  | .valueless => []
  | .keyless _ _ => []
  | .unclosed _ => []
  | .broken _ _ => []

/-- The written forms of the items of an array. -/
def renderItems : List Json → List Text
  | [] => []
  | item :: rest => render item :: renderItems rest

/-- The written forms of the fields of an object. -/
def renderFields : List (Text × Json) → List Text
  | [] => []
  | (key, value) :: rest => (quote key ++ ':' :: render value) :: renderFields rest

end

/-! ### Fields -/

/-- The value of a field of an object. -/
def field? (name : String) : Json → Option Json
  | .object fields => fields.lookup name.toList
  | _ => none

end Json

end SymbolDocs
