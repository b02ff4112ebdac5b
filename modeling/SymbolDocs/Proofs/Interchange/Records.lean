import SymbolDocs.Proofs.Interchange.Slots
set_option autoImplicit false

/-!
# The slots of each record

The decoders of types, members and listings are those of records with the slots given here. The
slots of a shape and of a member are those of the kind that its tag names.

## Main definitions

* `Interchange.typePlaces`, `Interchange.shapePlaces`, `Interchange.methodPlaces`, … — the slots of
  each record and where they are held.
* `Interchange.MemberTag` — the kinds of members, with the record beside the tag of each.
* `Interchange.ObjectKind.slots` — the slots of an object, which may depend on its tag.

## Main results

* `Interchange.isRecord_type`, `Interchange.isRecord_method`, … — the records.
* `Interchange.isTagged_shape`, `Interchange.isTagged_member` — the records with a tag.
* `Interchange.ObjectKind.keeps_object`, `Interchange.ObjectKind.keeps_array`,
  `Interchange.ObjectKind.keeps_array_tag` — an object is decoded as one whose fields or items it
  keeps.
-/

namespace SymbolDocs

namespace Interchange

open Json

/-! ### The places of each record -/

/-- The places of a type. -/
def typePlaces : List (Place TypeDraft) :=
  [{ slot := .required "name" .text, get := fun d => d.name, set := fun d name => { d with name } },
   { slot := .textOrEmpty "namespace", get := fun d => d.space
     set := fun d space => { d with space } },
   { slot := .mark "is_interface", get := fun d => d.isInterface
     set := fun d isInterface => { d with isInterface } },
   { slot := .shape, get := fun d => d.shape, set := fun d shape => { d with shape } }]

/-- The place of the element of a shape. -/
def elementPlace : Place ShapeDraft :=
  { slot := .required "element" (.object .type), get := fun d => d.element
    set := fun d element => { d with element } }

/-- The places of a shape of each kind. -/
def shapePlaces : ShapeKind → List (Place ShapeDraft)
  | .named =>
    [{ slot := .nullable "declaring" (.object .type), get := fun d => d.declaring
       set := fun d declaring => { d with declaring } },
     { slot := .many "generic_parameters" .text, get := fun d => d.parameters
       set := fun d parameters => { d with parameters } },
     { slot := .many "generic_arguments" (.object .type), get := fun d => d.arguments
       set := fun d arguments => { d with arguments } }]
  | .genericParameter => []
  | .array =>
    [elementPlace,
     { slot := .required "rank" .word32, get := fun d => d.rank
       set := fun d rank => { d with rank } }]
  | .pointer => [elementPlace]
  | .byRef => [elementPlace]

/-- The places of a parameter. -/
def parameterPlaces : List (Place ParameterDraft) :=
  [{ slot := .required "name" .text, get := fun d => d.name, set := fun d name => { d with name } },
   { slot := .required "type" (.object .type), get := fun d => d.type
     set := fun d type => { d with type } }]

/-- The places of a method. -/
def methodPlaces : List (Place MethodDraft) :=
  [{ slot := .required "name" .text, get := fun d => d.name, set := fun d name => { d with name } },
   { slot := .required "declaring" (.object .type), get := fun d => d.declaring
     set := fun d declaring => { d with declaring } },
   { slot := .many "generic_parameters" .text, get := fun d => d.generics
     set := fun d generics => { d with generics } },
   { slot := .many "parameters" (.object .parameter), get := fun d => d.parameters
     set := fun d parameters => { d with parameters } },
   { slot := .nullable "return_type" (.object .type), get := fun d => d.returns
     set := fun d returns => { d with returns } }]

/-- The places of a constructor. -/
def constructorPlaces : List (Place ConstructorDraft) :=
  [{ slot := .required "declaring" (.object .type), get := fun d => d.declaring
     set := fun d declaring => { d with declaring } },
   { slot := .many "parameters" (.object .parameter), get := fun d => d.parameters
     set := fun d parameters => { d with parameters } }]

/-- The places of a plain member. -/
def plainMemberPlaces : List (Place PlainMemberDraft) :=
  [{ slot := .required "name" .text, get := fun d => d.name, set := fun d name => { d with name } },
   { slot := .required "declaring" (.object .type), get := fun d => d.declaring
     set := fun d declaring => { d with declaring } }]

/-- The places of the listing of one type. -/
def typeListingPlaces : List (Place TypeListingDraft) :=
  [{ slot := .required "type" (.object .type), get := fun d => d.type
     set := fun d type => { d with type } },
   { slot := .many "members" (.object .member), get := fun d => d.members
     set := fun d members => { d with members } }]

/-- The places of a listing. -/
def listingPlaces : List (Place ListingDraft) :=
  [{ slot := .required "owner" .path, get := fun d => d.owner
     set := fun d owner => { d with owner } },
   { slot := .many "types" (.object .typeListing), get := fun d => d.types
     set := fun d types => { d with types } }]

/-! ### Records

Each decoder puts its fields into the places of its record by definition. What is left to be shown
of it is that the places are apart, and that what it makes of them depends on what they hold. -/

/-- Nothing may follow the last field of a record, wherever it comes from. -/
theorem close_eq_ok_iff {count : Nat} {origin : Origin} {surplus : Option (List Json)}
    {done : Unit} :
    RecordForm.close count origin surplus = .ok done ↔ surplus = none ∨ surplus = some [] := by
  match surplus with
  | none | some [] => simp [RecordForm.close]
  | some (json :: rest) =>
    simp only [RecordForm.close, reduceCtorEq, Option.some.injEq, or_self, iff_false]
    split <;> exact nofun

/-- Parameters are decoded slot by slot. -/
theorem isRecord_parameter : IsRecord parameter (parameterPlaces.map Place.slot) := by
  refine ⟨parameterForm, parameterPlaces, {}, _, rfl, rfl, ?_, ?_, ?_, rfl⟩
  · simp [parameterPlaces, Place.apart_iff, Slot.key]
  · simp [parameterPlaces]
  · intro entries others draft other result hsurplus hsame hresult
    obtain ⟨hname, htype⟩ : other.name = draft.name ∧ other.type = draft.type := by
      simpa [SameHeld, parameterPlaces, Slot.fallback] using hsame
    simp only [hsurplus, hname, htype, bind_eq_ok, close_eq_ok_iff] at hresult ⊢
    exact hresult

/-- Methods are decoded slot by slot. -/
theorem isRecord_method : IsRecord method (methodPlaces.map Place.slot) := by
  refine ⟨methodForm, methodPlaces, {}, _, rfl, rfl, ?_, ?_, ?_, rfl⟩
  · simp [methodPlaces, Place.apart_iff, Slot.key]
  · simp [methodPlaces]
  · intro entries others draft other result hsurplus hsame hresult
    obtain ⟨hname, hdeclaring, hgenerics, hparameters, hreturns⟩ :
        other.name = draft.name ∧ other.declaring = draft.declaring ∧
          other.generics.getD [] = draft.generics.getD [] ∧
          other.parameters.getD [] = draft.parameters.getD [] ∧
          other.returns.getD none = draft.returns.getD none := by
      simpa [SameHeld, methodPlaces, Slot.fallback] using hsame
    simp only [hsurplus, hname, hdeclaring, hgenerics, hparameters, hreturns, bind_eq_ok,
      close_eq_ok_iff] at hresult ⊢
    exact hresult

/-- Constructors are decoded slot by slot. -/
theorem isRecord_constructor : IsRecord constructor (constructorPlaces.map Place.slot) := by
  refine ⟨constructorForm, constructorPlaces, {}, _, rfl, rfl, ?_, ?_, ?_, rfl⟩
  · simp [constructorPlaces, Place.apart_iff, Slot.key]
  · simp [constructorPlaces]
  · intro entries others draft other result hsurplus hsame hresult
    obtain ⟨hdeclaring, hparameters⟩ : other.declaring = draft.declaring ∧
        other.parameters.getD [] = draft.parameters.getD [] := by
      simpa [SameHeld, constructorPlaces, Slot.fallback] using hsame
    simp only [hsurplus, hdeclaring, hparameters, bind_eq_ok, close_eq_ok_iff] at hresult ⊢
    exact hresult

/-- Properties, fields and events are decoded slot by slot. -/
theorem isRecord_plainMember : IsRecord plainMember (plainMemberPlaces.map Place.slot) := by
  refine ⟨plainMemberForm, plainMemberPlaces, {}, _, rfl, rfl, ?_, ?_, ?_, rfl⟩
  · simp [plainMemberPlaces, Place.apart_iff, Slot.key]
  · simp [plainMemberPlaces]
  · intro entries others draft other result hsurplus hsame hresult
    obtain ⟨hname, hdeclaring⟩ : other.name = draft.name ∧ other.declaring = draft.declaring := by
      simpa [SameHeld, plainMemberPlaces, Slot.fallback] using hsame
    simp only [hsurplus, hname, hdeclaring, bind_eq_ok, close_eq_ok_iff] at hresult ⊢
    exact hresult

/-- The entries of a listing are decoded slot by slot. -/
theorem isRecord_typeListing : IsRecord typeListing (typeListingPlaces.map Place.slot) := by
  refine ⟨typeListingForm, typeListingPlaces, {}, _, rfl, rfl, ?_, ?_, ?_, rfl⟩
  · simp [typeListingPlaces, Place.apart_iff, Slot.key]
  · simp [typeListingPlaces]
  · intro entries others draft other result hsurplus hsame hresult
    obtain ⟨htype, hmembers⟩ : other.type = draft.type ∧
        other.members.getD [] = draft.members.getD [] := by
      simpa [SameHeld, typeListingPlaces, Slot.fallback] using hsame
    simp only [hsurplus, htype, hmembers, bind_eq_ok, close_eq_ok_iff] at hresult ⊢
    exact hresult

/-- Listings are decoded slot by slot. -/
theorem isRecord_listing : IsRecord listing (listingPlaces.map Place.slot) := by
  refine ⟨listingForm, listingPlaces, {}, _, rfl, rfl, ?_, ?_, ?_, rfl⟩
  · simp [listingPlaces, Place.apart_iff, Slot.key]
  · simp [listingPlaces]
  · intro entries others draft other result hsurplus hsame hresult
    obtain ⟨howner, htypes⟩ : other.owner = draft.owner ∧
        other.types.getD [] = draft.types.getD [] := by
      simpa [SameHeld, listingPlaces, Slot.fallback] using hsame
    simp only [hsurplus, howner, htypes, bind_eq_ok, close_eq_ok_iff] at hresult ⊢
    exact hresult

/-! ### Types -/

/-- The fields of a type are those of a record. -/
theorem typeFields_eq_foldlM (origin : Origin) (draft : TypeDraft) (fields : List (Text × Json)) :
    typeFields origin draft fields = fields.foldlM (putInto origin typePlaces) draft := by
  induction fields generalizing draft with
  | nil => rfl
  | cons field fields ih =>
    obtain ⟨key, value⟩ := field
    rw [typeFields, List.foldlM_cons]
    exact congrArg _ (funext ih)

/-- The items of an array that stands for a type are the fields of a record. -/
theorem typeItems_eq_foldlM (origin : Origin) (draft : TypeDraft) (names : List String)
    (items : List Json) :
    typeItems origin draft names items =
      ((names.map String.toList).zip items).foldlM (putInto origin typePlaces) draft := by
  induction names generalizing draft items with
  | nil => cases items <;> rfl
  | cons name names ih =>
    cases items with
    | nil => rfl
    | cons item items =>
      rw [typeItems, List.map_cons, List.zip_cons_cons, List.foldlM_cons]
      exact congrArg _ (funext fun draft => ih draft items)

/-- Types are decoded slot by slot. -/
theorem isRecord_type : IsRecord type (typePlaces.map Place.slot) := by
  refine ⟨typeForm, typePlaces, {}, fun entries draft => do
    let result ← draft.finish entries.surplus
    RecordForm.close typeForm.fields.length entries.origin entries.surplus
    .ok result, rfl, rfl, ?_, ?_, ?_, ?_⟩
  · simp [typePlaces, Place.apart_iff, Slot.key]
  · simp [typePlaces]
  · intro entries others draft other result hsurplus hsame hresult
    obtain ⟨hname, hspace, hisInterface, hshape⟩ :
        other.name = draft.name ∧ other.space.getD [] = draft.space.getD [] ∧
          other.isInterface.getD false = draft.isInterface.getD false ∧
          (other.shape.getD fun header => .named header none [] []) =
            draft.shape.getD fun header => .named header none [] [] := by
      simpa [SameHeld, typePlaces, Slot.fallback] using hsame
    simp only [TypeDraft.finish, hsurplus, hname, hspace, hisInterface, hshape, bind_eq_ok,
      close_eq_ok_iff] at hresult ⊢
    exact hresult
  · funext origin json
    cases json with
    | object fields =>
      rw [type, decodeRecord]
      simp only [RecordForm.entries, typeFields_eq_foldlM]
      cases origin.enter with
      | error error => rfl
      | ok inner =>
        refine congrArg (List.foldlM (putInto inner typePlaces) ({} : TypeDraft) fields >>= ·)
          (funext fun draft => ?_)
        cases draft.finish none <;> rfl
    | array items =>
      rw [type, decodeRecord]
      simp only [RecordForm.entries, typeItems_eq_foldlM]
      cases origin.enter <;> rfl
    | _ => rfl

/-! ### Shapes -/

/-- The list of types inside a type is decoded as any list of types that has been taken up. -/
theorem typeList_eq (value : Json) : typeList value = list type .content value := by
  have hitems : ∀ items, typeListItems items = listItems type .content items := by
    intro items
    induction items with
    | nil => rfl
    | cons item items ih => rw [typeListItems, listItems, ih]
  cases value with
  | array items => exact hitems items
  | _ => rfl

/-- Whether an optional value is missing does not depend on how the value is decoded. -/
theorem optional_const {α : Type} (decode : Decoder α) (origin : Origin) (value : Json) :
    optional (fun _ _ => decode origin value) origin value = optional decode origin value := by
  cases value <;> rfl

/-- The tag of a shape is none of its fields. -/
theorem put_shape_tag (kind : ShapeKind) (draft : ShapeDraft) (value : Json)
    (one : Unit → Except DecodeError TypeTerm)
    (many : Unit → Except DecodeError (List TypeTerm)) :
    draft.put kind tagName value one many = .ok draft := by
  simp [ShapeDraft.put, tagName]

/-- One more field of a shape, where what is no field of it can be passed over. -/
theorem put_shape (kind : ShapeKind) (draft : ShapeDraft) (key : Text) {value : Json}
    (hpass : passOver value = .ok ()) :
    (draft.put kind key value (fun _ => type .content value) fun _ => typeList value) =
      putInto .content (shapePlaces kind) draft (key, value) := by
  cases kind <;>
    simp only [ShapeDraft.put, shapePlaces, putInto, typeList_eq, optional_const, hpass,
      reduceCtorEq, true_and, false_and, or_false, false_or, if_false] <;> rfl

/-- The fields of a shape are those of a record, where the ones beside the tag are values. -/
theorem shapeFields_eq_foldlM (kind : ShapeKind) (draft : ShapeDraft) {fields : List (Text × Json)}
    (hvalues : ∀ field ∈ fields, field.1 ≠ tagName → IsValue field.2) :
    shapeFields kind draft fields =
      (untagged fields).foldlM (putInto .content (shapePlaces kind)) draft := by
  induction fields generalizing draft with
  | nil => rfl
  | cons field fields ih =>
    obtain ⟨key, value⟩ := field
    obtain ⟨hvalue, hvalues⟩ := List.forall_mem_cons.mp hvalues
    rw [shapeFields]
    by_cases hkey : key = tagName
    · rw [hkey, put_shape_tag, untagged_cons_tag]
      exact ih draft hvalues
    · rw [put_shape kind draft key (hvalue hkey).passOver_eq_ok, untagged_cons_of_ne hkey,
        List.foldlM_cons]
      exact congrArg _ (funext fun draft => ih draft hvalues)

/-- The items of an array are the fields of a record, where they are values. -/
theorem shapeItems_eq_foldlM (kind : ShapeKind) (draft : ShapeDraft) (names : List String)
    {items : List Json} (hvalues : ∀ item ∈ items, IsValue item) :
    shapeItems kind draft names items = ((names.map String.toList).zip items).foldlM
      (putInto .content (shapePlaces kind)) draft := by
  induction items generalizing draft names with
  | nil =>
    rw [shapeItems, List.zip_nil_right]
    rfl
  | cons item items ih =>
    obtain ⟨hitem, hitems⟩ := List.forall_mem_cons.mp hvalues
    cases names with
    | nil => rfl
    | cons name names =>
      rw [shapeItems, put_shape kind draft name.toList hitem.passOver_eq_ok, List.map_cons,
        List.zip_cons_cons, List.foldlM_cons]
      exact congrArg _ (funext fun draft => ih draft names hitems)

/-- The record beside the tag of a shape. -/
def shapeRecord (kind : ShapeKind) : Decoder Shape :=
  decodeRecord kind.form (shapePlaces kind) {} fun entries draft => do
    let make ← draft.finish kind entries.surplus
    RecordForm.close kind.form.fields.length entries.origin entries.surplus
    .ok make

/-- The fields beside the tag of a shape are decoded slot by slot. -/
theorem isRecord_shapeRecord (kind : ShapeKind) :
    IsRecord (shapeRecord kind) ((shapePlaces kind).map Place.slot) := by
  refine ⟨kind.form, shapePlaces kind, {}, _, rfl, ?_, ?_, ?_, ?_, rfl⟩
  · cases kind <;> rfl
  · cases kind <;> simp [shapePlaces, elementPlace, Place.apart_iff, Slot.key]
  · cases kind <;> simp [shapePlaces, elementPlace]
  · intro entries others draft other result hsurplus hsame hresult
    have hfinish : other.finish kind entries.surplus = draft.finish kind entries.surplus := by
      cases kind <;>
        simp_all [SameHeld, shapePlaces, elementPlace, Slot.fallback, ShapeDraft.finish]
    simp only [hsurplus, hfinish, bind_eq_ok, close_eq_ok_iff] at hresult ⊢
    exact hresult

/-- The slots of a record with a tag, by what the tag names. -/
def slotsBy {κ : Type} (variants : List (String × κ)) (slots : κ → List Slot)
    (tag : Option Json) : List Slot :=
  ((tag.bind (named? variants)).map slots).getD []

section SlotsBy

variable {κ : Type} {variants : List (String × κ)} {slots : κ → List Slot}

/-- A tag that names a variant gives the slots of that variant. -/
theorem slotsBy_some {tag : Json} {kind : κ} (h : named? variants tag = some kind) :
    slotsBy variants slots (some tag) = slots kind := by
  rw [slotsBy, Option.bind_some, h]
  rfl

/-- What holds of the slots of each kind, and of none, holds of those a tag names. -/
theorem slotsBy_induction (P : List Slot → Prop) (hnil : P []) (h : ∀ kind, P (slots kind))
    (tag : Option Json) : P (slotsBy variants slots tag) := by
  rw [slotsBy]
  cases tag.bind (named? variants) with
  | none => exact hnil
  | some kind => exact h kind

end SlotsBy

/-- Shapes are decoded by their tag, then slot by slot. -/
theorem isTagged_shape :
    IsTagged shape shapeKinds shapeRecord
      (slotsBy shapeKinds fun kind => (shapePlaces kind).map Place.slot) where
  object origin fields result := by
    rw [shape, bind_eq_ok]
    refine exists_congr fun kind => and_congr_right fun hkind => ?_
    obtain ⟨-, -, -, -, -, hvalues⟩ := exists_of_objectTag hkind
    have hrecord : shapeRecord kind .content (.object (untagged fields)) =
        (untagged fields).foldlM (putInto .content (shapePlaces kind)) {} >>= fun draft =>
          draft.finish kind none := by
      refine congrArg (List.foldlM (putInto .content (shapePlaces kind)) ({} : ShapeDraft)
        (untagged fields) >>= ·) (funext fun draft => ?_)
      show (draft.finish kind none >>= fun make => RecordForm.close _ .content none >>= fun _ =>
        .ok make) = draft.finish kind none
      cases draft.finish kind none <;> rfl
    rw [shapeFields_eq_foldlM kind {} hvalues, hrecord]
  array origin items result := by
    rw [shape, bind_eq_ok]
    refine exists_congr fun kind => and_congr_right fun hkind => ?_
    obtain ⟨-, tag, rest, rfl, -, -, hvalues⟩ := exists_of_arrayTag hkind
    simp only [shapeItems_eq_foldlM kind {} _ hvalues]
    rfl
  record tag kind hkind := by
    rw [slotsBy_some hkind]
    exact ⟨shapeRecord kind, isRecord_shapeRecord kind, fun _ => rfl⟩
  key_ne := by
    refine slotsBy_induction (fun slots => ∀ slot ∈ slots, slot.key ≠ tagName)
      (List.forall_mem_nil _) fun kind => ?_
    cases kind <;> simp [shapePlaces, elementPlace, Slot.key, tagName]

/-! ### Members -/

/-- The kinds of members that a tag names. -/
inductive MemberTag where
  /-- A method. -/
  | method
  /-- A constructor. -/
  | constructor
  /-- A property. -/
  | property
  /-- A field. -/
  | field
  /-- An event. -/
  | event
  deriving DecidableEq, Repr

/-- The tags of the kinds of members. -/
def memberTags : List (String × MemberTag) :=
  [("method", .method), ("constructor", .constructor), ("property", .property), ("field", .field),
    ("event", .event)]

namespace MemberTag

/-- The record beside the tag of a member. -/
def record : MemberTag → Decoder Member
  | .method => fun origin json => (Interchange.method origin json).map .method
  | .constructor => fun origin json => (Interchange.constructor origin json).map .constructor
  | .property => fun origin json => (plainMember origin json).map .property
  | .field => fun origin json => (plainMember origin json).map .field
  | .event => fun origin json => (plainMember origin json).map .event

/-- The slots of the record beside the tag of a member. -/
def slots : MemberTag → List Slot
  | .method => methodPlaces.map Place.slot
  | .constructor => constructorPlaces.map Place.slot
  | .property => plainMemberPlaces.map Place.slot
  | .field => plainMemberPlaces.map Place.slot
  | .event => plainMemberPlaces.map Place.slot

/-- The fields beside the tag of a member are decoded slot by slot. -/
theorem isRecord : ∀ tag : MemberTag, IsRecord tag.record tag.slots
  | .method => isRecord_method.map Member.method
  | .constructor => isRecord_constructor.map Member.constructor
  | .property => isRecord_plainMember.map Member.property
  | .field => isRecord_plainMember.map Member.field
  | .event => isRecord_plainMember.map Member.event

end MemberTag

/-- What the tag of a member names is the record that stands beside that tag. -/
theorem memberKinds_eq_map :
    memberKinds = memberTags.map fun tag => (tag.1, tag.2.record .content) :=
  rfl

/-- Members are decoded by their tag, then slot by slot. -/
theorem isTagged_member :
    IsTagged member memberKinds (fun decode _ => decode) (slotsBy memberTags MemberTag.slots) where
  object origin fields result := by rw [member, bind_eq_ok]
  array origin items result := by rw [member, bind_eq_ok]
  record tag decode hdecode := by
    rw [memberKinds_eq_map, named?_map fun tag : MemberTag => tag.record .content,
      Option.map_eq_some_iff] at hdecode
    obtain ⟨kind, hkind, rfl⟩ := hdecode
    rw [slotsBy_some hkind]
    exact ⟨kind.record, kind.isRecord, fun _ => rfl⟩
  key_ne := by
    refine slotsBy_induction (fun slots => ∀ slot ∈ slots, slot.key ≠ tagName)
      (List.forall_mem_nil _) fun tag => ?_
    cases tag <;>
      simp [MemberTag.slots, methodPlaces, constructorPlaces, plainMemberPlaces, Slot.key, tagName]

/-! ### Objects -/

namespace ObjectKind

/-- Whether an object has a tag, which says what else it holds. -/
def isTagged : ObjectKind → Bool
  | .shape => true
  | .member => true
  | _ => false

/-- The slots of an object of some kind, which are those that its tag names if it has one. -/
def slots : ObjectKind → Option Json → List Slot
  | .type, _ => typePlaces.map Place.slot
  | .shape, tag => slotsBy shapeKinds (fun kind => (shapePlaces kind).map Place.slot) tag
  | .parameter, _ => parameterPlaces.map Place.slot
  | .method, _ => methodPlaces.map Place.slot
  | .constructor, _ => constructorPlaces.map Place.slot
  | .plainMember, _ => plainMemberPlaces.map Place.slot
  | .member, tag => slotsBy memberTags MemberTag.slots tag
  | .typeListing, _ => typeListingPlaces.map Place.slot
  | .listing, _ => listingPlaces.map Place.slot

/-- An object without a tag is a record. -/
theorem isRecord : ∀ {kind : ObjectKind}, kind.isTagged = false →
    ∀ tag, IsRecord kind.decode (kind.slots tag)
  | .type, _, _ => isRecord_type
  | .parameter, _, _ => isRecord_parameter
  | .method, _, _ => isRecord_method
  | .constructor, _, _ => isRecord_constructor
  | .plainMember, _, _ => isRecord_plainMember
  | .typeListing, _, _ => isRecord_typeListing
  | .listing, _, _ => isRecord_listing

/-- An object with a tag is a record with a tag. -/
theorem exists_isTagged : ∀ {kind : ObjectKind}, kind.isTagged = true →
    ∃ (κ : Type) (variants : List (String × κ)) (rest : κ → Decoder kind.Value),
      IsTagged kind.decode variants rest kind.slots
  | .shape, _ => ⟨_, _, _, isTagged_shape⟩
  | .member, _ => ⟨_, _, _, isTagged_member⟩

variable {kind : ObjectKind}

/-- The slots of an object have different names. -/
theorem nodup_keys (kind : ObjectKind) (tag : Option Json) :
    ((kind.slots tag).map Slot.key).Nodup := by
  cases kind with
  | shape =>
    exact slotsBy_induction (fun slots => (slots.map Slot.key).Nodup) .nil
      (fun kind => (isRecord_shapeRecord kind).nodup_keys) tag
  | member =>
    exact slotsBy_induction (fun slots => (slots.map Slot.key).Nodup) .nil
      (fun kind => kind.isRecord.nodup_keys) tag
  | _ => exact (isRecord rfl tag).nodup_keys

/-- No slot has the name of the tag, where there is one. -/
theorem key_ne_tagName (h : kind.isTagged = true) {tag : Option Json} {slot : Slot}
    (hslot : slot ∈ kind.slots tag) : slot.key ≠ tagName := by
  obtain ⟨_, _, _, htagged⟩ := exists_isTagged h
  exact htagged.key_ne tag slot hslot

/-- **An object is decoded as one whose fields it keeps.** -/
theorem keeps_object {fields others : List (Text × Json)}
    (h : FieldsKeep (kind.slots (tag? fields)) kind.isTagged fields others) :
    Keeps kind.decode (.object fields) (.object others) := by
  cases htagged : kind.isTagged with
  | false => exact (isRecord htagged _).keeps_object h
  | true =>
    obtain ⟨_, _, _, hrecord⟩ := exists_isTagged htagged
    rw [htagged] at h
    exact hrecord.keeps_object h

/-- **An array that stands for an object is decoded as one whose items it keeps.** -/
theorem keeps_array (hkind : kind.isTagged = false) {items others : List Json}
    (h : ItemsKeep (kind.slots none) items others) :
    Keeps kind.decode (.array items) (.array others) :=
  (isRecord hkind none).keeps_array h

/-- **An array that begins with a tag is decoded as one whose other items it keeps.** -/
theorem keeps_array_tag (hkind : kind.isTagged = true) {tag : Json} {items others : List Json}
    (h : ItemsKeep (kind.slots (some tag)) items others) :
    Keeps kind.decode (.array (tag :: items)) (.array (tag :: others)) := by
  obtain ⟨_, _, _, hrecord⟩ := exists_isTagged hkind
  exact hrecord.keeps_array h

end ObjectKind

end Interchange

end SymbolDocs
