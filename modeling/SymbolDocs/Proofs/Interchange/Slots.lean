import Mathlib.Tactic.MkIffOfInductiveProp
import SymbolDocs.Interchange.Listings
import SymbolDocs.Proofs.Interchange.Types
import SymbolDocs.Proofs.Json.Fields
set_option autoImplicit false

/-!
# Records slot by slot

A record has a slot for each of its fields. What it is decoded to depends, slot by slot, only on the
values under the name of the slot, and not on the default of a slot being there or not.

## Main definitions

* `Interchange.ObjectKind`, `Interchange.Form` — the values in a listing, with the decoder of each.
* `Interchange.Slot` — the name, the form and the default of a field.
* `Interchange.Place` — where the fields of a record that have been met hold a slot.
* `Interchange.FieldsKeep`, `Interchange.ItemsKeep` — fields and items that keep what others stand
  for in some slots.
* `Interchange.IsRecord`, `Interchange.IsTagged` — the decoders of records, without and with a tag.

## Main results

* `Interchange.foldlM_putInto_eq_ok`, `Interchange.exists_foldlM_putInto` — what the fields of a
  record put into its places.
* `Interchange.IsRecord.keeps_object`, `Interchange.IsRecord.keeps_array` — a record is decoded as
  one whose fields or items it keeps.
* `Interchange.IsTagged.keeps_object`, `Interchange.IsTagged.keeps_array` — so is one with a tag.

## Design

The fields that have been met are held by a structure of its own for each record. A place tells how
one slot is read from such a structure and written to it, so that the induction over the fields is
done once for all records. What is decoded beside a tag has been taken up as a whole, so that all of
it can be passed over as well; hence the shape of a type, which passes over nothing, is a record
like the others.
-/

namespace SymbolDocs

namespace Interchange

open Json

/-! ### Forms -/

/-- The kinds of objects in a listing. -/
inductive ObjectKind where
  /-- A type. -/
  | type
  /-- The shape of a type. -/
  | shape
  /-- A parameter. -/
  | parameter
  /-- A method. -/
  | method
  /-- A constructor. -/
  | constructor
  /-- A plain member. -/
  | plainMember
  /-- A member with the tag of its kind. -/
  | member
  /-- The listing of one type. -/
  | typeListing
  /-- A listing. -/
  | listing
  deriving DecidableEq, Repr

/-- What an object stands for. -/
@[reducible] def ObjectKind.Value : ObjectKind → Type
  | .type => TypeTerm
  | .shape => Shape
  | .parameter => Parameter
  | .method => Method
  | .constructor => Constructor
  | .plainMember => PlainMember
  | .member => Member
  | .typeListing => TypeListing
  | .listing => SymbolListing

/-- The decoder of an object. -/
def ObjectKind.decode : (kind : ObjectKind) → Decoder kind.Value
  | .type => Interchange.type
  | .shape => Interchange.shape
  | .parameter => Interchange.parameter
  | .method => Interchange.method
  | .constructor => Interchange.constructor
  | .plainMember => Interchange.plainMember
  | .member => Interchange.member
  | .typeListing => Interchange.typeListing
  | .listing => Interchange.listing

/-- The forms of the values in a listing. -/
inductive Form where
  /-- A string. -/
  | text
  /-- A path. -/
  | path
  /-- A truth value. -/
  | flag
  /-- A number of 32 bits. -/
  | word32
  /-- An array of values of one form. -/
  | list (item : Form)
  /-- A value that may be null. -/
  | optional (item : Form)
  /-- An object. -/
  | object (kind : ObjectKind)
  deriving DecidableEq, Repr

/-- What a value of a form stands for. -/
@[reducible] def Form.Value : Form → Type
  | .text => Text
  | .path => Text
  | .flag => Bool
  | .word32 => UInt32
  | .list item => List item.Value
  | .optional item => Option item.Value
  | .object kind => kind.Value

/-- The decoder of the values of a form. -/
def Form.decode : (form : Form) → Decoder form.Value
  | .text => Json.text
  | .path => Json.path
  | .flag => Json.flag
  | .word32 => Json.word32
  | .list item => Json.list item.decode
  | .optional item => Json.optional item.decode
  | .object kind => kind.decode

/-! ### Slots -/

/-- A field of a record: its name, the form of its values and, unless it must not be missing, the
value that it has by default, as it is written and as what it stands for. -/
structure Slot where
  /-- The name. -/
  name : String
  /-- The form of the values. -/
  form : Form
  /-- The default. -/
  default : Option (Json × form.Value) := none
  /-- What is written for the default is decoded to it. -/
  sound : ∀ value ∈ default, IsValue value.1 ∧ Decodes form.decode value.1 value.2 := by exact nofun

namespace Slot

/-- The name of a slot, as an object holds it. -/
def key (slot : Slot) : Text :=
  slot.name.toList

/-- What a slot stands for where it is left out. -/
def fallback (slot : Slot) : Option slot.form.Value :=
  slot.default.map Prod.snd

/-- A value stands for the default of a slot, wherever it comes from. -/
def IsDefault (slot : Slot) (json : Json) : Prop :=
  ∃ value ∈ slot.fallback, IsValue json ∧ Decodes slot.form.decode json value

/-- What is written for the default of a slot stands for it. -/
theorem isDefault {slot : Slot} {json : Json} {value : slot.form.Value}
    (h : slot.default = some (json, value)) : slot.IsDefault json :=
  ⟨value, Option.map_eq_some_iff.mpr ⟨_, h, rfl⟩, slot.sound _ h⟩

/-- A slot that must not be left out. -/
@[reducible] def required (name : String) (form : Form) : Slot :=
  { name, form }

/-- A slot for some values, by default none. -/
@[reducible] def many (name : String) (item : Form) : Slot where
  name := name
  form := .list item
  default := some (.array [], [])
  sound := by
    rintro _ ⟨⟩
    have hnone : Decodes (list item.decode) (.array (List.map (fun _ => .null) [])) [] :=
      decodes_list (List.forall_mem_nil _)
    exact ⟨.array (List.forall_mem_nil _), hnone⟩

/-- A slot for a value that may be null, by default null. -/
@[reducible] def nullable (name : String) (item : Form) : Slot where
  name := name
  form := .optional item
  default := some (.null, none)
  sound := by
    rintro _ ⟨⟩
    exact ⟨.null, fun _ _ => rfl⟩

/-- A slot for a string, by default empty. -/
@[reducible] def textOrEmpty (name : String) : Slot where
  name := name
  form := .text
  default := some (.string [], [])
  sound := by
    rintro _ ⟨⟩
    exact ⟨.string _, decodes_text []⟩

/-- A slot for a truth value, by default false. -/
@[reducible] def mark (name : String) : Slot where
  name := name
  form := .flag
  default := some (.boolean false, false)
  sound := by
    rintro _ ⟨⟩
    exact ⟨.boolean _, fun _ _ => rfl⟩

/-- The slot for the shape of a type, by default that of a type neither nested nor generic. -/
@[reducible] def shape : Slot where
  name := "shape"
  form := .object .shape
  default :=
    some (record [("kind", .string "named".toList)], fun header => .named header none [] [])
  sound := by
    rintro _ ⟨⟩
    refine ⟨(written_record ?_).isValue, ?_⟩
    · exact List.forall_mem_cons.mpr ⟨.string _, List.forall_mem_nil _⟩
    · exact decodes_shape "named" {} rfl (List.forall_mem_nil _) (List.forall_mem_nil _) rfl rfl

end Slot

/-! ### Places -/

/-- Where the fields of a record that have been met hold one slot. -/
structure Place (Draft : Type) where
  /-- The slot. -/
  slot : Slot
  /-- What is held in the slot. -/
  get : Draft → Option slot.form.Value
  /-- The fields with something else in the slot. -/
  set : Draft → Option slot.form.Value → Draft
  /-- What is put into the slot is held there. -/
  get_set : ∀ draft held, get (set draft held) = held := by intros; rfl

/-- Two places have different names, and what is put into the one does not change the other. -/
@[mk_iff]
structure Place.Apart {Draft : Type} (place other : Place Draft) : Prop where
  key_ne : place.slot.key ≠ other.slot.key
  get_set_left : ∀ draft held, place.get (other.set draft held) = place.get draft
  get_set_right : ∀ draft held, other.get (place.set draft held) = other.get draft

/-- One more field of a record with some places; the values of other fields are passed over. -/
def putInto {Draft : Type} (origin : Origin) :
    List (Place Draft) → Draft → Text × Json → Except DecodeError Draft
  | [], draft, field => do
    passOver field.2
    .ok draft
  | place :: places, draft, field =>
    if field.1 = place.slot.key then do
      let held ← fill field.1 (place.get draft) fun _ => place.slot.form.decode origin field.2
      .ok (place.set draft held)
    else putInto origin places draft field

section Places

variable {Draft : Type} {places : List (Place Draft)} {origin : Origin} {draft next : Draft}
  {field : Text × Json} {fields : List (Text × Json)}

/-- A field does not change a place apart from those it may be put into. -/
theorem get_putInto {place : Place Draft} (hapart : ∀ other ∈ places, place.Apart other)
    (h : putInto origin places draft field = .ok next) : place.get next = place.get draft := by
  induction places with
  | nil =>
    obtain ⟨_, -, hnext⟩ := bind_eq_ok.mp h
    rw [Except.ok.inj hnext]
  | cons other places ih =>
    obtain ⟨hother, hplaces⟩ := List.forall_mem_cons.mp hapart
    rw [putInto] at h
    split at h
    · obtain ⟨held, -, hnext⟩ := bind_eq_ok.mp h
      rw [← Except.ok.inj hnext, hother.get_set_left]
    · exact ih hplaces h

/-- What one more field puts into the places: its value where it has the name, and otherwise
nothing. -/
theorem putInto_eq_ok (hapart : places.Pairwise Place.Apart)
    (h : putInto origin places draft field = .ok next) :
    (∀ place ∈ places, Collects (place.slot.form.decode origin) (place.get draft)
      (valuesAt place.slot.key [field]) (place.get next)) ∧
    ((∀ place ∈ places, place.slot.key ≠ field.1) → passOver field.2 = .ok ()) := by
  induction places with
  | nil =>
    obtain ⟨_, hpassed, -⟩ := bind_eq_ok.mp h
    exact ⟨List.forall_mem_nil _, fun _ => hpassed⟩
  | cons place places ih =>
    obtain ⟨key, value⟩ := field
    obtain ⟨hplace, hplaces⟩ := List.pairwise_cons.mp hapart
    rw [putInto] at h
    split at h
    case isTrue hkey =>
      obtain rfl : key = place.slot.key := hkey
      obtain ⟨held, hheld, hnext⟩ := bind_eq_ok.mp h
      rw [← Except.ok.inj hnext]
      refine ⟨List.forall_mem_cons.mpr ⟨?_, fun other hother => ?_⟩, fun hunknown => ?_⟩
      · rw [valuesAt_cons_self, place.get_set]
        exact fill_eq_ok_iff.mp hheld
      · rw [valuesAt_cons_of_ne (hplace other hother).key_ne, (hplace other hother).get_set_right]
        exact .nothing _
      · exact absurd rfl (hunknown place List.mem_cons_self)
    case isFalse hkey =>
      obtain ⟨hcollects, hpassed⟩ := ih hplaces h
      refine ⟨List.forall_mem_cons.mpr ⟨?_, hcollects⟩, fun hunknown => ?_⟩
      · rw [valuesAt_cons_of_ne hkey, get_putInto hplace h]
        exact .nothing _
      · exact hpassed fun other hother => hunknown other (List.mem_cons_of_mem _ hother)

/-- One more field can be put into the places where its value can be held under its name, or can be
passed over. -/
theorem exists_putInto
    (hcollects : ∀ place ∈ places, ∃ held, Collects (place.slot.form.decode origin)
      (place.get draft) (valuesAt place.slot.key [field]) held)
    (hpass : (∀ place ∈ places, place.slot.key ≠ field.1) → passOver field.2 = .ok ()) :
    ∃ next, putInto origin places draft field = .ok next := by
  induction places with
  | nil => exact ⟨draft, bind_eq_ok.mpr ⟨(), hpass (List.forall_mem_nil _), rfl⟩⟩
  | cons place places ih =>
    obtain ⟨key, value⟩ := field
    obtain ⟨hplace, hplaces⟩ := List.forall_mem_cons.mp hcollects
    rw [putInto]
    split
    case isTrue hkey =>
      obtain rfl : key = place.slot.key := hkey
      obtain ⟨held, hheld⟩ := hplace
      rw [valuesAt_cons_self] at hheld
      exact ⟨_, bind_eq_ok.mpr ⟨held, fill_eq_ok_iff.mpr hheld, rfl⟩⟩
    case isFalse hkey =>
      refine ih hplaces fun hunknown => hpass (List.forall_mem_cons.mpr ⟨Ne.symm hkey, hunknown⟩)

/-- **What the fields of a record put into its places**, under each name: the values of that
name. -/
theorem foldlM_putInto_eq_ok (hapart : places.Pairwise Place.Apart)
    (h : fields.foldlM (putInto origin places) draft = .ok next) :
    (∀ place ∈ places, Collects (place.slot.form.decode origin) (place.get draft)
      (valuesAt place.slot.key fields) (place.get next)) ∧
    ∀ field ∈ fields, (∀ place ∈ places, place.slot.key ≠ field.1) →
      passOver field.2 = .ok () := by
  induction fields generalizing draft with
  | nil =>
    obtain rfl : draft = next := Except.ok.inj h
    exact ⟨fun _ _ => .nothing _, List.forall_mem_nil _⟩
  | cons field fields ih =>
    obtain ⟨between, hfield, hfields⟩ := bind_eq_ok.mp h
    obtain ⟨hfirst, hpassed⟩ := putInto_eq_ok hapart hfield
    obtain ⟨hrest, hothers⟩ := ih hfields
    refine ⟨fun place hplace => ?_, List.forall_mem_cons.mpr ⟨hpassed, hothers⟩⟩
    rw [valuesAt_cons, collects_append_iff]
    exact ⟨place.get between, hfirst place hplace, hrest place hplace⟩

/-- **The fields of a record can be put into its places** where the values of each name can be held
and the others can be passed over. -/
theorem exists_foldlM_putInto (hapart : places.Pairwise Place.Apart)
    (hcollects : ∀ place ∈ places, ∃ held, Collects (place.slot.form.decode origin)
      (place.get draft) (valuesAt place.slot.key fields) held)
    (hpass : ∀ field ∈ fields, (∀ place ∈ places, place.slot.key ≠ field.1) →
      passOver field.2 = .ok ()) :
    ∃ next, fields.foldlM (putInto origin places) draft = .ok next := by
  induction fields generalizing draft with
  | nil => exact ⟨draft, rfl⟩
  | cons field fields ih =>
    obtain ⟨hpassed, hothers⟩ := List.forall_mem_cons.mp hpass
    simp only [valuesAt_cons _ field fields, collects_append_iff] at hcollects
    have hfirst : ∀ place ∈ places, ∃ held, Collects (place.slot.form.decode origin)
        (place.get draft) (valuesAt place.slot.key [field]) held := by
      intro place hplace
      obtain ⟨_, between, hbetween, -⟩ := hcollects place hplace
      exact ⟨between, hbetween⟩
    obtain ⟨between, hfield⟩ := exists_putInto hfirst hpassed
    have hrest : ∀ place ∈ places, ∃ held, Collects (place.slot.form.decode origin)
        (place.get between) (valuesAt place.slot.key fields) held := by
      intro place hplace
      obtain ⟨held, other, hother, hheld⟩ := hcollects place hplace
      rw [((putInto_eq_ok hapart hfield).1 place hplace).unique hother]
      exact ⟨held, hheld⟩
    obtain ⟨next, hnext⟩ := ih hrest hothers
    exact ⟨next, bind_eq_ok.mpr ⟨between, hfield, hnext⟩⟩

end Places

/-! ### Records -/

/-- The values of a slot keep what other values of it stand for, by default or not. -/
def Slot.Keeps (slot : Slot) (values others : List Json) : Prop :=
  ∀ ⦃origin target : Origin⦄, origin.CarriesOver target →
    (∀ value ∈ others, target.Admits value) →
    ∀ held, Collects (slot.form.decode origin) none values held →
      ∃ kept, Collects (slot.form.decode target) none others kept ∧
        kept.or slot.fallback = held.or slot.fallback

/-- Two drafts hold the same in all places, where the defaults are counted as held. -/
def SameHeld {Draft : Type} (places : List (Place Draft)) (draft other : Draft) : Prop :=
  ∀ place ∈ places, (place.get other).or place.slot.fallback =
    (place.get draft).or place.slot.fallback

/-- The fields of an object keep what other fields stand for in the slots of a record. With a tag
among them, they keep the tag. -/
structure FieldsKeep (slots : List Slot) (tagged : Bool) (fields others : List (Text × Json)) :
    Prop where
  /-- The values of each slot keep what they stand for. -/
  values : ∀ slot ∈ slots, slot.Keeps (valuesAt slot.key fields) (valuesAt slot.key others)
  /-- The values of unknown names can be passed over. -/
  passed : (∀ field ∈ fields, (∀ slot ∈ slots, slot.key ≠ field.1) → passOver field.2 = .ok ()) →
    ∀ field ∈ others, (∀ slot ∈ slots, slot.key ≠ field.1) → passOver field.2 = .ok ()
  /-- The values can be taken up as a whole. -/
  whole : (∀ field ∈ fields, field.1 ≠ tagName → IsValue field.2) →
    ∀ field ∈ others, field.1 ≠ tagName → IsValue field.2
  /-- The tag is the same. -/
  tag : tagged = true → ∀ tag, valuesAt tagName fields = [tag] → valuesAt tagName others = [tag]

/-- The items of an array keep what other items stand for in the slots of a record, one by one. -/
structure ItemsKeep (slots : List Slot) (items others : List Json) : Prop where
  /-- The items that are values of slots keep what they stand for. -/
  fields : FieldsKeep slots false ((slots.map Slot.key).zip items) ((slots.map Slot.key).zip others)
  /-- The items beyond the last slot are the same. -/
  surplus : others.drop slots.length = items.drop slots.length
  /-- The items can be taken up as a whole. -/
  whole : (∀ item ∈ items, IsValue item) → ∀ item ∈ others, IsValue item

/-- A record is made of what its places hold, whatever the drafts that hold it. -/
def Finishes {Draft α : Type} (places : List (Place Draft))
    (finish : Entries → Draft → Except DecodeError α) : Prop :=
  ∀ entries others draft other result, others.surplus = entries.surplus →
    SameHeld places draft other → finish entries draft = .ok result →
      finish others other = .ok result

/-- The decoder of a record with some places. -/
def decodeRecord {Draft α : Type} (form : RecordForm) (places : List (Place Draft)) (start : Draft)
    (finish : Entries → Draft → Except DecodeError α) : Decoder α := fun origin json => do
  let entries ← form.entries origin json
  let draft ← entries.fields.foldlM (putInto entries.origin places) start
  finish entries draft

/-- A decoder is that of a record with some slots. -/
inductive IsRecord {α : Type} (decode : Decoder α) (slots : List Slot) : Prop
  /-- The places of the slots are apart, and nothing stands in them at the start. -/
  | intro {Draft : Type} (form : RecordForm) (places : List (Place Draft)) (start : Draft)
      (finish : Entries → Draft → Except DecodeError α) (hslots : places.map Place.slot = slots)
      (hnames : slots.map Slot.name = form.fields) (hapart : places.Pairwise Place.Apart)
      (hstart : ∀ place ∈ places, place.get start = none) (hfinish : Finishes places finish)
      (hdecode : decode = decodeRecord form places start finish)

/-- **The fields that keep what other fields stand for are put into the same places.** -/
theorem FieldsKeep.exists_foldlM_putInto {Draft : Type} {places : List (Place Draft)}
    {tagged : Bool} {fields others : List (Text × Json)} {start draft : Draft}
    {origin target : Origin} (h : FieldsKeep (places.map Place.slot) tagged fields others)
    (hapart : places.Pairwise Place.Apart) (hstart : ∀ place ∈ places, place.get start = none)
    (hcarries : origin.CarriesOver target) (hadmits : ∀ field ∈ others, target.Admits field.2)
    (hdraft : fields.foldlM (putInto origin places) start = .ok draft) :
    ∃ other, others.foldlM (putInto target places) start = .ok other ∧
      SameHeld places draft other := by
  obtain ⟨hvalues, hpassed, -, -⟩ := h
  simp only [List.forall_mem_map] at hvalues hpassed
  obtain ⟨hcollects, hfields⟩ := foldlM_putInto_eq_ok hapart hdraft
  have hkept : ∀ place ∈ places, ∃ kept, Collects (place.slot.form.decode target)
      (place.get start) (valuesAt place.slot.key others) kept ∧
        kept.or place.slot.fallback = (place.get draft).or place.slot.fallback := by
    intro place hplace
    have hheld := hcollects place hplace
    rw [hstart place hplace] at hheld ⊢
    exact hvalues place hplace hcarries
      (fun value hvalue => hadmits _ (mem_valuesAt.mp hvalue)) _ hheld
  have hexists : ∀ place ∈ places, ∃ kept, Collects (place.slot.form.decode target)
      (place.get start) (valuesAt place.slot.key others) kept := fun place hplace =>
    (hkept place hplace).imp fun _ => And.left
  obtain ⟨other, hother⟩ := Interchange.exists_foldlM_putInto hapart hexists (hpassed hfields)
  refine ⟨other, hother, fun place hplace => ?_⟩
  obtain ⟨kept, hkept, hsame⟩ := hkept place hplace
  rw [((foldlM_putInto_eq_ok hapart hother).1 place hplace).unique hkept, hsame]

section Records

variable {α : Type} {decode : Decoder α} {slots : List Slot}

/-- The slots of a record have different names. -/
theorem IsRecord.nodup_keys (h : IsRecord decode slots) : (slots.map Slot.key).Nodup := by
  obtain ⟨_, places, _, _, rfl, -, hapart, -, -, -⟩ := h
  exact List.pairwise_map.mpr (List.pairwise_map.mpr (hapart.imp Place.Apart.key_ne))

/-- **A record is decoded from an object as from one whose fields it keeps.** -/
theorem IsRecord.keeps_object (h : IsRecord decode slots) {tagged : Bool}
    {fields others : List (Text × Json)} (hkeep : FieldsKeep slots tagged fields others) :
    Keeps decode (.object fields) (.object others) := by
  obtain ⟨form, places, start, finish, rfl, -, hapart, hstart, hfinish, rfl⟩ := h
  intro origin target hcarries hadmits result hresult
  obtain ⟨inner, hinner, hfields⟩ := hadmits.object
  obtain ⟨entries, hentries, hresult⟩ := bind_eq_ok.mp hresult
  obtain ⟨draft, hdraft, hresult⟩ := bind_eq_ok.mp hresult
  obtain ⟨entered, hentered, hentries⟩ := bind_eq_ok.mp hentries
  obtain rfl := Except.ok.inj hentries
  obtain ⟨other, hother, hsame⟩ := hkeep.exists_foldlM_putInto hapart hstart
    (hcarries.enter hentered hinner) hfields hdraft
  exact bind_eq_ok.mpr ⟨⟨inner, others, none⟩, bind_eq_ok.mpr ⟨inner, hinner, rfl⟩,
    bind_eq_ok.mpr ⟨other, hother, hfinish ⟨entered, fields, none⟩ _ _ _ _ rfl hsame hresult⟩⟩

/-- **A record is decoded from an array as from one whose items it keeps.** -/
theorem IsRecord.keeps_array (h : IsRecord decode slots) {items others : List Json}
    (hkeep : ItemsKeep slots items others) : Keeps decode (.array items) (.array others) := by
  obtain ⟨form, places, start, finish, rfl, hnames, hapart, hstart, hfinish, rfl⟩ := h
  have hkeys : form.fields.map String.toList = (places.map Place.slot).map Slot.key := by
    rw [← hnames, List.map_map]
    rfl
  have hlength : form.fields.length = (places.map Place.slot).length := by
    rw [← hnames, List.length_map]
  intro origin target hcarries hadmits result hresult
  obtain ⟨inner, hinner, hitems⟩ := hadmits.array
  obtain ⟨entries, hentries, hresult⟩ := bind_eq_ok.mp hresult
  obtain ⟨draft, hdraft, hresult⟩ := bind_eq_ok.mp hresult
  obtain ⟨entered, hentered, hentries⟩ := bind_eq_ok.mp hentries
  obtain rfl := Except.ok.inj hentries
  rw [hkeys] at hdraft
  obtain ⟨other, hother, hsame⟩ := hkeep.fields.exists_foldlM_putInto hapart hstart
    (hcarries.enter hentered hinner)
    (fun field hfield => hitems _ (List.of_mem_zip hfield).2) hdraft
  refine bind_eq_ok.mpr ⟨⟨inner, (form.fields.map String.toList).zip others,
    some (others.drop form.fields.length)⟩, bind_eq_ok.mpr ⟨inner, hinner, rfl⟩,
    bind_eq_ok.mpr ⟨other, ?_, hfinish _ _ _ _ _ ?_ hsame hresult⟩⟩
  · rw [hkeys]
    exact hother
  · rw [hlength, hkeep.surplus]

/-- A record that is made into something else is a record. -/
theorem IsRecord.map (h : IsRecord decode slots) {β : Type} (f : α → β) :
    IsRecord (fun origin json => (decode origin json).map f) slots := by
  obtain ⟨form, places, start, finish, hslots, hnames, hapart, hstart, hfinish, rfl⟩ := h
  refine ⟨form, places, start, fun entries draft => (finish entries draft).map f, hslots, hnames,
    hapart, hstart, ?_, ?_⟩
  · intro entries others draft other result hsurplus hsame hresult
    obtain ⟨a, ha, hresult⟩ := map_eq_ok.mp hresult
    exact map_eq_ok.mpr ⟨a, hfinish entries others draft other a hsurplus hsame ha, hresult⟩
  · funext origin json
    simp only [decodeRecord]
    cases form.entries origin json with
    | error error => rfl
    | ok entries =>
      show ((entries.fields.foldlM _ start >>= finish entries) : Except _ _).map f =
        (entries.fields.foldlM _ start >>= fun draft => (finish entries draft).map f)
      cases entries.fields.foldlM (putInto entries.origin places) start <;> rfl

end Records

/-! ### Records with a tag -/

/-- A decoder takes the kind of a record from its tag and decodes the rest as a record with the
slots of the kind, none of which is called as the tag is. -/
structure IsTagged {α κ : Type} (decode : Decoder α) (variants : List (String × κ))
    (rest : κ → Decoder α) (slots : Option Json → List Slot) : Prop where
  /-- An object is decoded by its tag. -/
  object : ∀ origin fields result, decode origin (.object fields) = .ok result ↔
    ∃ kind, objectTag variants origin fields = .ok kind ∧
      rest kind .content (.object (untagged fields)) = .ok result
  /-- An array is decoded by its tag. -/
  array : ∀ origin items result, decode origin (.array items) = .ok result ↔
    ∃ kind, arrayTag variants origin items = .ok kind ∧
      rest kind .content (.array (items.drop 1)) = .ok result
  /-- The rest is a record. -/
  record : ∀ tag kind, named? variants tag = some kind → ∃ decode : Decoder α,
    IsRecord decode (slots (some tag)) ∧ ∀ json, rest kind .content json = decode .content json
  /-- The tag has a name of its own. -/
  key_ne : ∀ tag, ∀ slot ∈ slots tag, slot.key ≠ tagName

/-- The tag among some fields. -/
def tag? (fields : List (Text × Json)) : Option Json :=
  (valuesAt tagName fields).head?

section Tagged

variable {α κ : Type} {decode : Decoder α} {variants : List (String × κ)} {rest : κ → Decoder α}
  {slots : Option Json → List Slot}

/-- **A record with a tag is decoded from an object as from one whose fields it keeps.** -/
theorem IsTagged.keeps_object (h : IsTagged decode variants rest slots)
    {fields others : List (Text × Json)}
    (hkeep : FieldsKeep (slots (tag? fields)) true fields others) :
    Keeps decode (.object fields) (.object others) := by
  intro origin target hcarries hadmits result hresult
  obtain ⟨kind, hkind, hresult⟩ := (h.object _ _ _).mp hresult
  obtain ⟨inner, tag, hinner, htag, hnamed, hvalues⟩ := exists_of_objectTag hkind
  have hfound : tag? fields = some tag := by rw [tag?, htag, List.head?_cons]
  rw [hfound] at hkeep
  obtain ⟨record, hrecord, hsame⟩ := h.record tag kind (named?_of_tagValue hnamed)
  have hothers := hkeep.whole hvalues
  have hrest : FieldsKeep (slots (some tag)) false (untagged fields) (untagged others) := by
    have hwhole : ∀ field ∈ untagged others, IsValue field.2 := fun field hfield =>
      hothers field (List.mem_of_mem_filter hfield) (by simpa using List.of_mem_filter hfield)
    refine ⟨fun slot hslot => ?_, fun _ field hfield _ => (hwhole field hfield).passOver_eq_ok,
      fun _ field hfield _ => hwhole field hfield, nofun⟩
    have hne := h.key_ne _ slot hslot
    rw [valuesAt_untagged hne, valuesAt_untagged hne]
    exact hkeep.values slot hslot
  refine (h.object _ _ _).mpr ⟨kind, ?_, ?_⟩
  · exact objectTag_of_valuesAt hadmits (hkeep.tag rfl tag htag)
      (fun entered hentered => tagValue_of_carriesOver (hcarries.enter hinner hentered) hnamed)
      hothers
  · rw [hsame] at hresult ⊢
    exact hrecord.keeps_object hrest (.refl .content) trivial result hresult

/-- **A record with a tag is decoded from an array as from one whose items it keeps.** -/
theorem IsTagged.keeps_array (h : IsTagged decode variants rest slots) {tag : Json}
    {items others : List Json} (hkeep : ItemsKeep (slots (some tag)) items others) :
    Keeps decode (.array (tag :: items)) (.array (tag :: others)) := by
  intro origin target hcarries hadmits result hresult
  obtain ⟨kind, hkind, hresult⟩ := (h.array _ _ _).mp hresult
  obtain ⟨inner, first, behind, hitems, hinner, hnamed, hvalues⟩ := exists_of_arrayTag hkind
  obtain ⟨rfl, rfl⟩ := List.cons_eq_cons.mp hitems
  obtain ⟨record, hrecord, hsame⟩ := h.record tag kind (named?_of_tagValue hnamed)
  refine (h.array _ _ _).mpr ⟨kind, ?_, ?_⟩
  · exact arrayTag_cons hadmits
      (fun entered hentered => tagValue_of_carriesOver (hcarries.enter hinner hentered) hnamed)
      (hkeep.whole hvalues)
  · rw [hsame] at hresult ⊢
    exact hrecord.keeps_array hkeep (.refl .content) trivial result hresult

end Tagged

end Interchange

end SymbolDocs
