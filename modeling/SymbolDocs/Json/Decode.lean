import SymbolDocs.Json.Reader
import SymbolDocs.Text.Printable
set_option autoImplicit false

/-!
# Decoding values

What a decoder of JSON values needs of any kind: the errors, the simple values, the lists and the
records. A record is an object of named fields, in any order, of which some may be missing and
unknown ones are passed over; it may also be an array of the values of the first fields in order.

## Main definitions

* `Json.Origin` — where a value comes from.
* `Json.DecodeError` — why a value does not fit, with its wording.
* `Json.Decoder` — a decoder of values.
* `Json.text`, `Json.flag`, `Json.word32`, `Json.list`, `Json.optional` — the simple decoders.
* `Json.RecordForm` — the title and the fields of a record.
* `Json.RecordForm.entries` — the entries of a record in the order they stand.

## Design

A decoder meets the faults of a text and the entries that do not fit in the order in which they
stand, and reports the first. Nothing is decoded twice.
-/

namespace SymbolDocs

namespace Json

/-! ### Errors -/

/-- What a value is, where another kind of value was expected. -/
inductive Found where
  /-- The null value. -/
  | null
  /-- A truth value. -/
  | boolean (value : Bool)
  /-- A number. -/
  | number (value : JsonNumber)
  /-- A string. -/
  | string (value : Text)
  /-- An array. -/
  | sequence
  /-- An object. -/
  | map
  deriving DecidableEq, Repr

/-- Why a value cannot be decoded. -/
inductive DecodeError where
  /-- The text is not JSON. -/
  | text (fault : TextFault)
  /-- A field is missing. -/
  | missingField (name : Text)
  /-- A field stands twice. -/
  | duplicateField (name : Text)
  /-- A name is none of the known ones. -/
  | unknownVariant (name : Text) (known : List Text)
  /-- A value is of another kind. -/
  | invalidType (found : Found) (expected : Text)
  /-- A value of the right kind is out of range. -/
  | invalidValue (found : Found) (expected : Text)
  /-- An array has another length. -/
  | invalidLength (length : Nat) (expected : Text)
  deriving DecidableEq, Repr

/-- The hexadecimal digits of a number. -/
def hexDigits (n : Nat) : Text :=
  Nat.toDigits 16 n

/-- A character as it is shown inside a quoted string. -/
def shownChar (c : Char) : Text :=
  if c = '"' then "\\\"".toList
  else if c = '\\' then "\\\\".toList
  else if c = '\n' then "\\n".toList
  else if c = '\r' then "\\r".toList
  else if c = '\t' then "\\t".toList
  else if c = '\x00' then "\\0".toList
  else if Text.isPrintable c then [c]
  else "\\u\x7b".toList ++ hexDigits c.toNat ++ ['\x7d']

/-- The wording of what was found. -/
def Found.message : Found → Text
  | .null => "null".toList
  | .boolean true => "boolean `true`".toList
  | .boolean false => "boolean `false`".toList
  | .number (.integer n) => "integer `".toList ++ (JsonNumber.integer n).render ++ "`".toList
  | .number (.real x) => "floating point `".toList ++ x.render ++ "`".toList
  | .string value => "string \"".toList ++ value.flatMap shownChar ++ "\"".toList
  | .sequence => "sequence".toList
  | .map => "map".toList

/-- A name between backticks. -/
def ticked (name : Text) : Text :=
  '\x60' :: name ++ ['\x60']

/-- The wording of an error in the data; a text that is not JSON has none. -/
def DecodeError.message? : DecodeError → Option Text
  | .text _ => none
  | .missingField name => some ("missing field ".toList ++ ticked name)
  | .duplicateField name => some ("duplicate field ".toList ++ ticked name)
  | .unknownVariant name known =>
    some ("unknown variant ".toList ++ ticked name ++ ", expected one of ".toList ++
      List.intercalate ", ".toList (known.map ticked))
  | .invalidType found expected =>
    some ("invalid type: ".toList ++ found.message ++ ", expected ".toList ++ expected)
  | .invalidValue found expected =>
    some ("invalid value: ".toList ++ found.message ++ ", expected ".toList ++ expected)
  | .invalidLength length expected =>
    some ("invalid length ".toList ++ Text.ofNat length ++ ", expected ".toList ++ expected)

/-! ### Origins and decoders -/

/-- Where a value comes from. -/
inductive Origin where
  /-- A text in which the value may nest some more levels. -/
  | text (levels : Nat)
  /-- A value that is known as a whole. -/
  | value
  /-- A part of a value that has been read as a whole before its form was known. -/
  | content
  deriving DecidableEq, Repr

/-- The number of levels a text may nest. -/
def Origin.document : Origin :=
  .text 127

/-- A decoder of values. -/
abbrev Decoder (α : Type) := Origin → Json → Except DecodeError α

/-- The origin of the parts of an array or object; a text may not nest too deeply. -/
def Origin.enter : Origin → Except DecodeError Origin
  | .text 0 => .error (.text .malformed)
  | .text (levels + 1) => .ok (.text levels)
  | origin => .ok origin

/-- What a value is; a literal that stands for no value is a fault of the text. -/
def found : Json → Except DecodeError Found
  | .null => .ok .null
  | .boolean value => .ok (.boolean value)
  | .number value => .ok (.number value)
  | .string value => .ok (.string value)
  | .array _ => .ok .sequence
  | .object _ => .ok .map
  | .valueless => .error (.text .malformed)
  | .keyless needed _ => .error (.text needed)
  | .unclosed fault => .error (.text fault)
  | .broken needed _ => .error (.text needed)

/-- The failure of a value that is of another kind than expected. -/
def mismatch {α : Type} (expected : Text) (json : Json) : Except DecodeError α := do
  let kind ← json.found
  .error (.invalidType kind expected)

/-! ### Passing over values -/

mutual

/-- The first fault met in passing over the value of a field: a key that stands for no text, or the
place where the text stops being JSON. -/
def passOver : Json → Except DecodeError Unit
  | .keyless needed _ => .error (.text needed)
  | .unclosed fault => .error (.text fault)
  | .broken _ passed => .error (.text passed)
  | .array items => passOverItems items
  | .object fields => passOverFields fields
  | _ => .ok ()

/-- The first fault met in passing over some items. -/
def passOverItems : List Json → Except DecodeError Unit
  | [] => .ok ()
  | item :: rest => do
    passOver item
    passOverItems rest

/-- The first fault met in passing over some fields, whose keys need not stand for any text. -/
def passOverFields : List (Text × Json) → Except DecodeError Unit
  | [] => .ok ()
  | (_, .keyless _ none) :: rest => passOverFields rest
  | (_, .keyless _ (some passed)) :: _ => .error (.text passed)
  | (_, value) :: rest => do
    passOver value
    passOverFields rest

end

mutual

/-- The first fault met in taking up a value as a whole: a nesting too deep, a literal or a key that
stands for nothing, or the place where the text stops being JSON. -/
def takeUp : Origin → Json → Except DecodeError Unit
  | origin, .array items => do
    let inner ← origin.enter
    takeUpItems inner items
  | origin, .object fields => do
    let inner ← origin.enter
    takeUpFields inner fields
  | _, .valueless => .error (.text .malformed)
  | _, .keyless needed _ => .error (.text needed)
  | _, .unclosed fault => .error (.text fault)
  | _, .broken needed _ => .error (.text needed)
  | _, _ => .ok ()

/-- The first fault met in taking up some items. -/
def takeUpItems (origin : Origin) : List Json → Except DecodeError Unit
  | [] => .ok ()
  | item :: rest => do
    takeUp origin item
    takeUpItems origin rest

/-- The first fault met in taking up some fields. -/
def takeUpFields (origin : Origin) : List (Text × Json) → Except DecodeError Unit
  | [] => .ok ()
  | (_, value) :: rest => do
    takeUp origin value
    takeUpFields origin rest

end

/-! ### Simple values -/

/-- The text of a string, under a given description of what is expected. -/
def textAs (expected : String) : Decoder Text
  | _, .string value => .ok value
  | _, json => mismatch expected.toList json

/-- A string. -/
def text : Decoder Text :=
  textAs "a string"

/-- A path. -/
def path : Decoder Text :=
  textAs "path string"

/-- A truth value. -/
def flag : Decoder Bool
  | _, .boolean value => .ok value
  | _, json => mismatch "a boolean".toList json

/-- A number of 32 bits. -/
def word32 : Decoder UInt32
  | _, .number (.integer n) =>
    if 0 ≤ n ∧ n < UInt32.size then .ok n.toNat.toUInt32
    else .error (.invalidValue (.number (.integer n)) "u32".toList)
  | _, json => mismatch "u32".toList json

/-- The items of an array in order, each by the same decoder. -/
def listItems {α : Type} (item : Decoder α) (origin : Origin) :
    List Json → Except DecodeError (List α)
  | [] => .ok []
  | json :: rest => do
    let first ← item origin json
    let others ← listItems item origin rest
    .ok (first :: others)

/-- An array of values of one kind. -/
def list {α : Type} (item : Decoder α) : Decoder (List α)
  | origin, .array items => do
    let inner ← origin.enter
    listItems item inner items
  | _, json => mismatch "a sequence".toList json

/-- A value that may be null. -/
def optional {α : Type} (item : Decoder α) : Decoder (Option α)
  | _, .null => .ok none
  | origin, json => (item origin json).map some

/-! ### Records -/

/-- The title of a record and the names of its fields in order. -/
structure RecordForm where
  /-- The title. -/
  title : String
  /-- The names of the fields. -/
  fields : List String

/-- The values of a record as they stand. -/
structure Entries where
  /-- The origin of the values. -/
  origin : Origin
  /-- The values with their field names. -/
  fields : List (Text × Json)
  /-- The values beyond the last field, where the record is an array. -/
  surplus : Option (List Json)

namespace RecordForm

/-- The description of the record that is expected. -/
def description (form : RecordForm) : Text :=
  "struct ".toList ++ form.title.toList

/-- The values of a record: the fields of an object, or the items of an array as the values of the
fields in order. -/
def entries (form : RecordForm) : Decoder Entries
  | origin, .object fields => do
    let inner ← origin.enter
    .ok ⟨inner, fields, none⟩
  | origin, .array items => do
    let inner ← origin.enter
    .ok ⟨inner, (form.fields.map String.toList).zip items, some (items.drop form.fields.length)⟩
  | _, json => mismatch form.description json

/-- The words for a number of elements. -/
def elements (n : Nat) : Text :=
  Text.ofNat n ++ (if n = 1 then " element".toList else " elements".toList)

/-- The value of a field that must not be missing. In an array it is missing when the array is too
short. -/
def require {α : Type} (form : RecordForm) (surplus : Option (List Json)) (name : String)
    (value : Option α) : Except DecodeError α :=
  match value, surplus with
  | some value, _ => .ok value
  | none, none => .error (.missingField name.toList)
  | none, some _ =>
    .error (.invalidLength (form.fields.idxOf name)
      (form.description ++ " with ".toList ++ elements form.fields.length))

/-- Refusal of the values beyond the last field of a record. In a text nothing but the end of the
array may follow that field. -/
def close (count : Nat) (origin : Origin) : Option (List Json) → Except DecodeError Unit
  | none => .ok ()
  | some [] => .ok ()
  | some (json :: rest) =>
    match origin, json with
    | .text _, .unclosed fault => .error (.text fault)
    | .text _, _ => .error (.text .malformed)
    | .value, _ =>
      .error (.invalidLength (count + rest.length + 1) "fewer elements in array".toList)
    | .content, _ =>
      .error (.invalidLength (count + rest.length + 1) (elements count ++ " in sequence".toList))

end RecordForm

/-- The value of a field where none has been met before; a second one is an error. -/
def fill {α : Type} (name : Text) (slot : Option α) (decode : Unit → Except DecodeError α) :
    Except DecodeError (Option α) :=
  match slot with
  | some _ => .error (.duplicateField name)
  | none => (decode ()).map some

/-! ### Tags -/

/-- The variant a name stands for. -/
def variant {α : Type} (variants : List (String × α)) (name : Text) : Except DecodeError α :=
  match (variants.map fun v => (v.1.toList, v.2)).lookup name with
  | some value => .ok value
  | none => .error (.unknownVariant name (variants.map fun v => v.1.toList))

/-- The variant a tag stands for. A tag is the name of the variant; in a value that has been read as
a whole it may also be its number. -/
def tagValue {α : Type} (variants : List (String × α)) : Decoder α
  | _, .string name => variant variants name
  | .content, .number (.integer n) =>
    match if 0 ≤ n then variants[n.toNat]? else none with
    | some v => .ok v.2
    | none =>
      if 0 ≤ n then
        .error (.invalidValue (.number (.integer n))
          ("variant index 0 <= i < ".toList ++ Text.ofNat variants.length))
      else .error (.invalidType (.number (.integer n)) "variant identifier".toList)
  | _, json => mismatch "variant identifier".toList json

/-- The name of the field that holds the tag of a value with variants. -/
def tagName : Text :=
  "kind".toList

/-- The tag among the fields of an object; every other value is taken up as a whole. -/
def tagIn {α : Type} (variants : List (String × α)) (origin : Origin) (tag : Option α) :
    List (Text × Json) → Except DecodeError (Option α)
  | [] => .ok tag
  | (key, value) :: rest =>
    if key = tagName then do
      let tag ← fill tagName tag fun _ => tagValue variants origin value
      tagIn variants origin tag rest
    else do
      takeUp origin value
      tagIn variants origin tag rest

/-- The tag of an object. -/
def objectTag {α : Type} (variants : List (String × α)) (origin : Origin)
    (fields : List (Text × Json)) : Except DecodeError α := do
  let inner ← origin.enter
  let tag ← tagIn variants inner none fields
  match tag with
  | some value => .ok value
  | none => .error (.missingField tagName)

/-- The tag of an array: its first item. Every other item is taken up as a whole. -/
def arrayTag {α : Type} (variants : List (String × α)) (origin : Origin) :
    List Json → Except DecodeError α
  | [] => do
    let _ ← origin.enter
    .error (.missingField tagName)
  | first :: rest => do
    let inner ← origin.enter
    let tag ← tagValue variants inner first
    takeUpItems inner rest
    .ok tag

/-- The fields of an object without its tag. -/
def untagged (fields : List (Text × Json)) : List (Text × Json) :=
  fields.filter fun field => field.1 ≠ tagName

end Json

end SymbolDocs
