import SymbolDocs.Interchange.Types
import SymbolDocs.Member
set_option autoImplicit false

/-!
# Members as JSON values

Parameters, methods, constructors and plain members are records. A member is the record of its kind
with the tag of the kind before the other fields.

## Main definitions

* `Interchange.ofParameter`, `Interchange.ofMethod`, `Interchange.ofConstructor`,
  `Interchange.ofPlainMember`, `Interchange.ofMember` — the values.
* `Interchange.parameter`, `Interchange.method`, `Interchange.constructor`,
  `Interchange.plainMember`, `Interchange.member` — the decoders.
* `Interchange.ofKind`, `Interchange.kind` — the kinds of symbols as strings.
-/

namespace SymbolDocs

namespace Interchange

open Json

/-! ### Encoding -/

/-- The value of a parameter. -/
def ofParameter (parameter : Parameter) : Json :=
  record [("name", .string parameter.name), ("type", ofType parameter.type)]

/-- The fields of a method. -/
def methodFields (method : Method) : List (String × Json) :=
  [("name", .string method.name), ("declaring", ofType method.declaring),
    ("generic_parameters", ofTexts method.generics),
    ("parameters", .array (method.parameters.map ofParameter)),
    ("return_type", ofOption (method.returns.map ofType))]

/-- The fields of a constructor. -/
def constructorFields (constructor : Constructor) : List (String × Json) :=
  [("declaring", ofType constructor.declaring),
    ("parameters", .array (constructor.parameters.map ofParameter))]

/-- The fields of a plain member. -/
def plainMemberFields (member : PlainMember) : List (String × Json) :=
  [("name", .string member.name), ("declaring", ofType member.declaring)]

/-- The value of a method. -/
def ofMethod (method : Method) : Json :=
  record (methodFields method)

/-- The value of a constructor. -/
def ofConstructor (constructor : Constructor) : Json :=
  record (constructorFields constructor)

/-- The value of a plain member. -/
def ofPlainMember (member : PlainMember) : Json :=
  record (plainMemberFields member)

/-- The value of a member. -/
def ofMember : Member → Json
  | .method m => record (("kind", .string "method".toList) :: methodFields m)
  | .constructor c => record (("kind", .string "constructor".toList) :: constructorFields c)
  | .property p => record (("kind", .string "property".toList) :: plainMemberFields p)
  | .field f => record (("kind", .string "field".toList) :: plainMemberFields f)
  | .event e => record (("kind", .string "event".toList) :: plainMemberFields e)

/-! ### Decoding -/

/-- The record of a parameter. -/
def parameterForm : RecordForm :=
  ⟨"ParameterDescriptor", ["name", "type"]⟩

/-- The fields of a parameter met so far. -/
structure ParameterDraft where
  /-- The name. -/
  name : Option Text := none
  /-- The type. -/
  type : Option TypeTerm := none

/-- One more field of a parameter. -/
def ParameterDraft.put (origin : Origin) (draft : ParameterDraft) (field : Text × Json) :
    Except DecodeError ParameterDraft :=
  if field.1 = "name".toList then do
    let name ← fill field.1 draft.name fun _ => text origin field.2
    .ok { draft with name }
  else if field.1 = "type".toList then do
    let type ← fill field.1 draft.type fun _ => Interchange.type origin field.2
    .ok { draft with type }
  else do
    passOver field.2
    .ok draft

/-- The decoder of parameters. -/
def parameter : Decoder Parameter := fun origin json => do
  let entries ← parameterForm.entries origin json
  let draft ← entries.fields.foldlM (ParameterDraft.put entries.origin) {}
  let name ← parameterForm.require entries.surplus "name" draft.name
  let type ← parameterForm.require entries.surplus "type" draft.type
  RecordForm.close parameterForm.fields.length entries.origin entries.surplus
  .ok { name, type }

/-- The record of a method. -/
def methodForm : RecordForm :=
  ⟨"MethodDescriptor", ["name", "declaring", "generic_parameters", "parameters", "return_type"]⟩

/-- The fields of a method met so far. -/
structure MethodDraft where
  /-- The name. -/
  name : Option Text := none
  /-- The declaring type. -/
  declaring : Option TypeTerm := none
  /-- The generic parameters. -/
  generics : Option (List Text) := none
  /-- The parameters. -/
  parameters : Option (List Parameter) := none
  /-- The type of the result. -/
  returns : Option (Option TypeTerm) := none

/-- One more field of a method. -/
def MethodDraft.put (origin : Origin) (draft : MethodDraft) (field : Text × Json) :
    Except DecodeError MethodDraft :=
  if field.1 = "name".toList then do
    let name ← fill field.1 draft.name fun _ => text origin field.2
    .ok { draft with name }
  else if field.1 = "declaring".toList then do
    let declaring ← fill field.1 draft.declaring fun _ => type origin field.2
    .ok { draft with declaring }
  else if field.1 = "generic_parameters".toList then do
    let generics ← fill field.1 draft.generics fun _ => list text origin field.2
    .ok { draft with generics }
  else if field.1 = "parameters".toList then do
    let parameters ← fill field.1 draft.parameters fun _ => list parameter origin field.2
    .ok { draft with parameters }
  else if field.1 = "return_type".toList then do
    let returns ← fill field.1 draft.returns fun _ => optional type origin field.2
    .ok { draft with returns }
  else do
    passOver field.2
    .ok draft

/-- The decoder of methods. -/
def method : Decoder Method := fun origin json => do
  let entries ← methodForm.entries origin json
  let draft ← entries.fields.foldlM (MethodDraft.put entries.origin) {}
  let name ← methodForm.require entries.surplus "name" draft.name
  let declaring ← methodForm.require entries.surplus "declaring" draft.declaring
  RecordForm.close methodForm.fields.length entries.origin entries.surplus
  .ok {
    name, declaring
    generics := draft.generics.getD []
    parameters := draft.parameters.getD []
    returns := draft.returns.getD none }

/-- The record of a constructor. -/
def constructorForm : RecordForm :=
  ⟨"ConstructorDescriptor", ["declaring", "parameters"]⟩

/-- The fields of a constructor met so far. -/
structure ConstructorDraft where
  /-- The declaring type. -/
  declaring : Option TypeTerm := none
  /-- The parameters. -/
  parameters : Option (List Parameter) := none

/-- One more field of a constructor. -/
def ConstructorDraft.put (origin : Origin) (draft : ConstructorDraft) (field : Text × Json) :
    Except DecodeError ConstructorDraft :=
  if field.1 = "declaring".toList then do
    let declaring ← fill field.1 draft.declaring fun _ => type origin field.2
    .ok { draft with declaring }
  else if field.1 = "parameters".toList then do
    let parameters ← fill field.1 draft.parameters fun _ => list parameter origin field.2
    .ok { draft with parameters }
  else do
    passOver field.2
    .ok draft

/-- The decoder of constructors. -/
def constructor : Decoder Constructor := fun origin json => do
  let entries ← constructorForm.entries origin json
  let draft ← entries.fields.foldlM (ConstructorDraft.put entries.origin) {}
  let declaring ← constructorForm.require entries.surplus "declaring" draft.declaring
  RecordForm.close constructorForm.fields.length entries.origin entries.surplus
  .ok { declaring, parameters := draft.parameters.getD [] }

/-- The record of a plain member. -/
def plainMemberForm : RecordForm :=
  ⟨"NamedMember", ["name", "declaring"]⟩

/-- The fields of a plain member met so far. -/
structure PlainMemberDraft where
  /-- The name. -/
  name : Option Text := none
  /-- The declaring type. -/
  declaring : Option TypeTerm := none

/-- One more field of a plain member. -/
def PlainMemberDraft.put (origin : Origin) (draft : PlainMemberDraft) (field : Text × Json) :
    Except DecodeError PlainMemberDraft :=
  if field.1 = "name".toList then do
    let name ← fill field.1 draft.name fun _ => text origin field.2
    .ok { draft with name }
  else if field.1 = "declaring".toList then do
    let declaring ← fill field.1 draft.declaring fun _ => type origin field.2
    .ok { draft with declaring }
  else do
    passOver field.2
    .ok draft

/-- The decoder of plain members. -/
def plainMember : Decoder PlainMember := fun origin json => do
  let entries ← plainMemberForm.entries origin json
  let draft ← entries.fields.foldlM (PlainMemberDraft.put entries.origin) {}
  let name ← plainMemberForm.require entries.surplus "name" draft.name
  let declaring ← plainMemberForm.require entries.surplus "declaring" draft.declaring
  RecordForm.close plainMemberForm.fields.length entries.origin entries.surplus
  .ok { name, declaring }

/-- The decoders of the members of each kind, by their tags. -/
def memberKinds : List (String × (Json → Except DecodeError Member)) :=
  [("method", fun json => (method .content json).map .method),
    ("constructor", fun json => (constructor .content json).map .constructor),
    ("property", fun json => (plainMember .content json).map .property),
    ("field", fun json => (plainMember .content json).map .field),
    ("event", fun json => (plainMember .content json).map .event)]

/-- The decoder of members. -/
def member : Decoder Member
  | origin, .object fields => do
    let decode ← objectTag memberKinds origin fields
    decode (.object (untagged fields))
  | origin, .array items => do
    let decode ← arrayTag memberKinds origin items
    decode (.array (items.drop 1))
  | _, json => mismatch "internally tagged enum MemberDescriptor".toList json

/-! ### Kinds of symbols -/

/-- The names of the kinds of symbols. -/
def kindNames : List (String × SymbolKind) :=
  [("type", .type), ("method", .method), ("property", .property), ("field", .field),
    ("event", .event)]

/-- The value of a kind: its name. -/
def ofKind : SymbolKind → Json
  | .type => .string "type".toList
  | .method => .string "method".toList
  | .property => .string "property".toList
  | .field => .string "field".toList
  | .event => .string "event".toList

/-- The null value, which is all that may stand beside the name of a kind. -/
def unit : Json → Except DecodeError Unit
  | .null => .ok ()
  | json => mismatch "unit".toList json

/-- A kind as the only field of an object, with a null value, in a text. A second field is
malformed, whether or not it ends. -/
def kindField (origin : Origin) : List (Text × Json) → Except DecodeError SymbolKind
  | [] => .error (.text .malformed)
  | (_, .keyless needed _) :: _ => do
    let _ ← origin.enter
    .error (.text needed)
  | (name, value) :: rest => do
    let _ ← origin.enter
    let kind ← variant kindNames name
    unit value
    match rest with
    | [] => .ok kind
    | (_, .unclosed fault) :: _ => .error (.text fault)
    | _ => .error (.text .malformed)

/-- The decoder of kinds: a name, or an object with the name as its only field. In a text, where
neither begins is malformed, whether or not it ends. -/
def kind : Decoder SymbolKind
  | _, .string name => variant kindNames name
  | .text levels, .object fields => kindField (.text levels) fields
  | .text _, .broken .ended _ => .error (.text .ended)
  | .text _, .unclosed fault => .error (.text fault)
  | .text _, _ => .error (.text .malformed)
  | _, .object [(name, value)] => do
    let kind ← variant kindNames name
    unit value
    .ok kind
  | _, .object _ => .error (.invalidValue .map "map with a single key".toList)
  | _, json => mismatch "string or map".toList json

end Interchange

end SymbolDocs
