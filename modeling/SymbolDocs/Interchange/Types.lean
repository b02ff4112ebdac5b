import SymbolDocs.Json.Decode
import SymbolDocs.TypeTerm.Basic
set_option autoImplicit false

/-!
# Type terms as JSON values

A type is a record of its header and its shape. The shape is an object with a tag, which says what
else it holds. A missing shape is that of a named type that is neither nested nor generic.

## Main definitions

* `Interchange.ofType` — the value of a type.
* `Interchange.type` — the decoder of types.

## Design

A shape is decoded to the function that puts a header on it, since the header stands beside it.
-/

namespace SymbolDocs

namespace Interchange

open Json

/-! ### Encoding -/

/-- An object from its fields in order. -/
def record (fields : List (String × Json)) : Json :=
  .object (fields.map fun field => (field.1.toList, field.2))

/-- An array of strings. -/
def ofTexts (texts : List Text) : Json :=
  .array (texts.map .string)

/-- The null value for nothing. -/
def ofOption : Option Json → Json
  | none => .null
  | some json => json

/-- The value of a type of a given header and shape. -/
def ofHeader (header : TypeHeader) (shape : List (String × Json)) : Json :=
  record [("name", .string header.name), ("namespace", .string header.space),
    ("is_interface", .boolean header.isInterface), ("shape", record shape)]

mutual

/-- The value of a type. -/
def ofType : TypeTerm → Json
  | .named header declaring parameters arguments =>
    ofHeader header [("kind", .string "named".toList),
      ("declaring", ofOption (ofTypeOption declaring)), ("generic_parameters", ofTexts parameters),
      ("generic_arguments", .array (ofTypes arguments))]
  | .genericParameter header => ofHeader header [("kind", .string "generic_parameter".toList)]
  | .array header element rank =>
    ofHeader header [("kind", .string "array".toList), ("element", ofType element),
      ("rank", .number (.integer rank.toNat))]
  | .pointer header element =>
    ofHeader header [("kind", .string "pointer".toList), ("element", ofType element)]
  | .byRef header element =>
    ofHeader header [("kind", .string "by_ref".toList), ("element", ofType element)]

/-- The value of an enclosing type. -/
def ofTypeOption : Option TypeTerm → Option Json
  | none => none
  | some type => some (ofType type)

/-- The values of some types. -/
def ofTypes : List TypeTerm → List Json
  | [] => []
  | type :: rest => ofType type :: ofTypes rest

end

/-! ### Decoding -/

/-- A type that still lacks its header. -/
abbrev Shape := TypeHeader → TypeTerm

/-- The kinds of shapes. -/
inductive ShapeKind where
  /-- A named type. -/
  | named
  /-- A reference to a generic parameter. -/
  | genericParameter
  /-- An array. -/
  | array
  /-- A pointer. -/
  | pointer
  /-- A by-reference type. -/
  | byRef
  deriving DecidableEq, Repr

/-- The tags of the kinds of shapes. -/
def shapeKinds : List (String × ShapeKind) :=
  [("named", .named), ("generic_parameter", .genericParameter), ("array", .array),
    ("pointer", .pointer), ("by_ref", .byRef)]

/-- The record of a type. -/
def typeForm : RecordForm :=
  ⟨"TypeDescriptor", ["name", "namespace", "is_interface", "shape"]⟩

/-- The record inside a shape, by its kind. -/
def ShapeKind.form : ShapeKind → RecordForm
  | .named => ⟨"variant TypeShape::Named", ["declaring", "generic_parameters", "generic_arguments"]⟩
  | .genericParameter => ⟨"unit variant TypeShape::GenericParameter", []⟩
  | .array => ⟨"variant TypeShape::Array", ["element", "rank"]⟩
  | .pointer => ⟨"variant TypeShape::Pointer", ["element"]⟩
  | .byRef => ⟨"variant TypeShape::ByRef", ["element"]⟩

/-- The fields of a type met so far. -/
structure TypeDraft where
  /-- The name. -/
  name : Option Text := none
  /-- The namespace. -/
  space : Option Text := none
  /-- The interface mark. -/
  isInterface : Option Bool := none
  /-- The shape. -/
  shape : Option Shape := none

/-- One more field of a type; `shape` decodes its value as a shape. -/
def TypeDraft.put (draft : TypeDraft) (origin : Origin) (key : Text) (value : Json)
    (shape : Unit → Except DecodeError Shape) : Except DecodeError TypeDraft :=
  if key = "name".toList then do
    let name ← fill key draft.name fun _ => text origin value
    .ok { draft with name }
  else if key = "namespace".toList then do
    let space ← fill key draft.space fun _ => text origin value
    .ok { draft with space }
  else if key = "is_interface".toList then do
    let isInterface ← fill key draft.isInterface fun _ => flag origin value
    .ok { draft with isInterface }
  else if key = "shape".toList then do
    let shape ← fill key draft.shape shape
    .ok { draft with shape }
  else do
    passOver value
    .ok draft

/-- The type of the fields met, where only the name must not be missing. -/
def TypeDraft.finish (draft : TypeDraft) (surplus : Option (List Json)) :
    Except DecodeError TypeTerm := do
  let name ← typeForm.require surplus "name" draft.name
  let shape := draft.shape.getD fun header => .named header none [] []
  .ok (shape ⟨name, draft.space.getD [], draft.isInterface.getD false⟩)

/-- The fields of a shape met so far. -/
structure ShapeDraft where
  /-- The enclosing type. -/
  declaring : Option (Option TypeTerm) := none
  /-- The generic parameters. -/
  parameters : Option (List Text) := none
  /-- The generic arguments. -/
  arguments : Option (List TypeTerm) := none
  /-- The element. -/
  element : Option TypeTerm := none
  /-- The rank. -/
  rank : Option UInt32 := none

/-- One more field of a shape of some kind; `one` and `many` decode its value as a type and as a
list of types. -/
def ShapeDraft.put (kind : ShapeKind) (draft : ShapeDraft) (key : Text) (value : Json)
    (one : Unit → Except DecodeError TypeTerm) (many : Unit → Except DecodeError (List TypeTerm)) :
    Except DecodeError ShapeDraft :=
  if kind = .named ∧ key = "declaring".toList then do
    let declaring ← fill key draft.declaring fun _ => optional (fun _ _ => one ()) .content value
    .ok { draft with declaring }
  else if kind = .named ∧ key = "generic_parameters".toList then do
    let parameters ← fill key draft.parameters fun _ => list text .content value
    .ok { draft with parameters }
  else if kind = .named ∧ key = "generic_arguments".toList then do
    let arguments ← fill key draft.arguments many
    .ok { draft with arguments }
  else if (kind = .array ∨ kind = .pointer ∨ kind = .byRef) ∧ key = "element".toList then do
    let element ← fill key draft.element one
    .ok { draft with element }
  else if kind = .array ∧ key = "rank".toList then do
    let rank ← fill key draft.rank fun _ => word32 .content value
    .ok { draft with rank }
  else .ok draft

/-- The shape of the fields met, where an element and a rank must not be missing. -/
def ShapeDraft.finish (kind : ShapeKind) (draft : ShapeDraft) (surplus : Option (List Json)) :
    Except DecodeError Shape :=
  match kind with
  | .named =>
    .ok fun header => .named header (draft.declaring.getD none) (draft.parameters.getD [])
      (draft.arguments.getD [])
  | .genericParameter => .ok .genericParameter
  | .array => do
    let element ← kind.form.require surplus "element" draft.element
    let rank ← kind.form.require surplus "rank" draft.rank
    .ok fun header => .array header element rank
  | .pointer => do
    let element ← kind.form.require surplus "element" draft.element
    .ok fun header => .pointer header element
  | .byRef => do
    let element ← kind.form.require surplus "element" draft.element
    .ok fun header => .byRef header element

/-- The description of a shape that is expected. -/
def shapeDescription : Text :=
  "internally tagged enum TypeShape".toList

mutual

/-- The decoder of types. -/
def type (origin : Origin) : Json → Except DecodeError TypeTerm
  | .object fields => do
    let inner ← origin.enter
    let draft ← typeFields inner {} fields
    draft.finish none
  | .array items => do
    let inner ← origin.enter
    let draft ← typeItems inner {} typeForm.fields items
    let surplus := items.drop typeForm.fields.length
    let result ← draft.finish (some surplus)
    RecordForm.close typeForm.fields.length inner (some surplus)
    .ok result
  | json => mismatch typeForm.description json

/-- The fields of a type in order. -/
def typeFields (origin : Origin) (draft : TypeDraft) :
    List (Text × Json) → Except DecodeError TypeDraft
  | [] => .ok draft
  | (key, value) :: rest => do
    let draft ← draft.put origin key value fun _ => shape origin value
    typeFields origin draft rest

/-- The items of an array as the fields of a type. -/
def typeItems (origin : Origin) (draft : TypeDraft) (names : List String) :
    List Json → Except DecodeError TypeDraft
  | [] => .ok draft
  | value :: rest =>
    match names with
    | [] => .ok draft
    | name :: names => do
      let draft ← draft.put origin name.toList value fun _ => shape origin value
      typeItems origin draft names rest

/-- The decoder of shapes. -/
def shape (origin : Origin) : Json → Except DecodeError Shape
  | .object fields => do
    let kind ← objectTag shapeKinds origin fields
    let draft ← shapeFields kind {} fields
    draft.finish kind none
  | .array items => do
    let kind ← arrayTag shapeKinds origin items
    match items with
    | [] => mismatch shapeDescription .null
    | _ :: rest => do
      let draft ← shapeItems kind {} kind.form.fields rest
      let surplus := rest.drop kind.form.fields.length
      let result ← draft.finish kind (some surplus)
      RecordForm.close kind.form.fields.length .content (some surplus)
      .ok result
  | json => mismatch shapeDescription json

/-- The fields of a shape in order; the tag is none of them. -/
def shapeFields (kind : ShapeKind) (draft : ShapeDraft) :
    List (Text × Json) → Except DecodeError ShapeDraft
  | [] => .ok draft
  | (key, value) :: rest => do
    let draft ← draft.put kind key value (fun _ => type .content value)
      fun _ => typeList value
    shapeFields kind draft rest

/-- The items of an array as the fields of a shape. -/
def shapeItems (kind : ShapeKind) (draft : ShapeDraft) (names : List String) :
    List Json → Except DecodeError ShapeDraft
  | [] => .ok draft
  | value :: rest =>
    match names with
    | [] => .ok draft
    | name :: names => do
      let draft ← draft.put kind name.toList value (fun _ => type .content value)
        fun _ => typeList value
      shapeItems kind draft names rest

/-- An array of types. -/
def typeList : Json → Except DecodeError (List TypeTerm)
  | .array items => typeListItems items
  | json => mismatch "a sequence".toList json

/-- The types of the items of an array. -/
def typeListItems : List Json → Except DecodeError (List TypeTerm)
  | [] => .ok []
  | json :: rest => do
    let first ← type .content json
    let others ← typeListItems rest
    .ok (first :: others)

end

end Interchange

end SymbolDocs
