import Mathlib.Data.List.Nodup
import Mathlib.Logic.Relation
import SymbolDocs.Proofs.Interchange.Records
set_option autoImplicit false

/-!
# Values presented differently

A type, a member or a listing is decoded to the same however its value is presented: with the fields
of its objects in another order, with fields that are not known, and with or without those that hold
a default. Only a text that comes to nest too deeply, or to hold a literal that stands for no value,
may be refused.

## Main definitions

* `Interchange.Alters` — one alteration of the presentation of a value, at any depth.
* `Interchange.Rearranges` — any number of alterations.

## Main results

* `Interchange.keeps_self` — a value is decoded to the same wherever it comes from.
* `Interchange.Alters.keeps` — one alteration keeps what a value is decoded to.
* `Interchange.decode_rearranged` — decoding ignores presentation.
* `Interchange.addedField_refused` — additions with which a text is refused.

## Design

An alteration is one step at one place: at the front of an object, or in one of the values in an
object or array. Since the fields of an object may be permuted as well, the front is no restriction.
Which names are known and which defaults there are is told by `ObjectKind.slots`, for a shape and a
member by its tag, wherever that stands.

The value of an added field is one as a whole: a literal such as `1e999` stands for none, and what
is read as a whole before its form is known cannot pass over it.

The values that stand between two presentations may nest too deeply for a text even if those two do
not. The steps are therefore followed for values that come from no text.
-/

namespace SymbolDocs

namespace Interchange

open Json

/-! ### The values of a slot -/

section Slots

variable {slot : Slot}

/-- Values that keep others one by one keep what these stand for in a slot. -/
theorem Slot.keeps_of_forall₂ {values others : List Json}
    (h : List.Forall₂ (Json.Keeps slot.form.decode) values others) : slot.Keeps values others := by
  intro origin target hcarries hadmits held hheld
  cases h with
  | nil =>
    obtain rfl := collects_nil_iff.mp hheld
    exact ⟨none, .nothing _, rfl⟩
  | @cons value other _ _ hvalue hrest =>
    obtain ⟨-, rfl, a, ha, rfl⟩ := collects_cons_iff.mp hheld
    cases hrest
    have hother := hvalue hcarries (hadmits other List.mem_cons_self) a ha
    exact ⟨some a, .value hother, rfl⟩

/-- Permuted values are the same ones, where a slot takes them. -/
theorem Slot.keeps_of_perm {values others : List Json} (h : values.Perm others)
    (hself : ∀ value ∈ values, Json.Keeps slot.form.decode value value) :
    slot.Keeps values others := by
  intro origin target hcarries hadmits held hheld
  obtain rfl : values = others := by
    cases hheld with
    | nothing => exact (List.nil_perm.mp h).symm
    | value => exact List.singleton_perm.mp h
  exact Slot.keeps_of_forall₂ (List.forall₂_same.mpr hself) hcarries hadmits held hheld

/-- A value that stands for the default of a slot can be written out. -/
theorem Slot.keeps_default {json : Json} (h : slot.IsDefault json) : slot.Keeps [] [json] := by
  intro origin target hcarries hadmits held hheld
  obtain rfl := collects_nil_iff.mp hheld
  obtain ⟨value, hvalue, -, hdecodes⟩ := h
  refine ⟨some value, .value (hdecodes target (hadmits json List.mem_cons_self)), ?_⟩
  rw [Option.mem_def.mp hvalue]
  rfl

/-- A value that stands for the default of a slot can be left out. -/
theorem Slot.keeps_without {json : Json} {rest : List Json} {value : slot.form.Value}
    (hvalue : slot.form.decode .content json = .ok value) (hdefault : slot.fallback = some value)
    (hself : Json.Keeps slot.form.decode json json) : slot.Keeps (json :: rest) rest := by
  intro origin target hcarries hadmits held hheld
  obtain ⟨-, rfl, a, ha, rfl⟩ := collects_cons_iff.mp hheld
  have hwhole : slot.form.decode .content json = .ok a := hself (fun _ => rfl) trivial a ha
  obtain rfl : a = value := Except.ok.inj (hwhole.symm.trans hvalue)
  refine ⟨none, .nothing _, ?_⟩
  rw [hdefault]
  rfl

end Slots

/-! ### The fields of an object -/

/-- A field keeps what another one stands for in the slots of a record. -/
structure FieldKeeps (slots : List Slot) (tagged : Bool) (field other : Text × Json) : Prop where
  /-- The name is the same. -/
  key : other.1 = field.1
  /-- The value of a slot keeps what it stands for. -/
  value : ∀ slot ∈ slots, slot.key = field.1 → Keeps slot.form.decode field.2 other.2
  /-- The value of an unknown name can be passed over. -/
  passed : (∀ slot ∈ slots, slot.key ≠ field.1) → passOver field.2 = .ok () →
    passOver other.2 = .ok ()
  /-- The value can be taken up as a whole. -/
  whole : IsValue field.2 → IsValue other.2
  /-- The value of a tag is the same. -/
  tag : tagged = true → field.1 = tagName → field.2 = other.2

/-- The values of a name are related where the fields of that name are. -/
theorem forall₂_valuesAt {R : Json → Json → Prop} {key : Text} {fields others : List (Text × Json)}
    (h : List.Forall₂ (fun field other => other.1 = field.1 ∧ (field.1 = key → R field.2 other.2))
      fields others) : List.Forall₂ R (valuesAt key fields) (valuesAt key others) := by
  induction h with
  | nil => exact .nil
  | @cons field other _ _ hfield _ ih =>
    obtain ⟨name, value⟩ := field
    obtain ⟨otherName, otherValue⟩ := other
    obtain ⟨rfl : otherName = name, hvalue⟩ := hfield
    by_cases hname : otherName = key
    · subst hname
      rw [valuesAt_cons_self, valuesAt_cons_self]
      exact .cons (hvalue rfl) ih
    · rw [valuesAt_cons_of_ne hname, valuesAt_cons_of_ne hname]
      exact ih

section Fields

variable {slots : List Slot} {tagged : Bool} {fields others : List (Text × Json)}

/-- Fields keep what others stand for where they do so one by one. -/
theorem FieldsKeep.of_forall₂ (h : List.Forall₂ (FieldKeeps slots tagged) fields others) :
    FieldsKeep slots tagged fields others where
  values slot hslot := Slot.keeps_of_forall₂ <| forall₂_valuesAt <|
    h.imp fun _ _ hfield => ⟨hfield.key, fun hkey => hfield.value slot hslot hkey.symm⟩
  passed hpassed := by
    induction h with
    | nil => exact List.forall_mem_nil _
    | cons hfield _ ih =>
      obtain ⟨hfirst, hrest⟩ := List.forall_mem_cons.mp hpassed
      refine List.forall_mem_cons.mpr ⟨fun hunknown => ?_, ih hrest⟩
      rw [hfield.key] at hunknown
      exact hfield.passed hunknown (hfirst hunknown)
  whole hwhole := by
    induction h with
    | nil => exact List.forall_mem_nil _
    | cons hfield _ ih =>
      obtain ⟨hfirst, hrest⟩ := List.forall_mem_cons.mp hwhole
      refine List.forall_mem_cons.mpr ⟨fun hne => ?_, ih hrest⟩
      rw [hfield.key] at hne
      exact hfield.whole (hfirst hne)
  tag htagged tag htag := by
    have hsame : List.Forall₂ Eq (valuesAt tagName fields) (valuesAt tagName others) :=
      forall₂_valuesAt (h.imp fun _ _ hfield => ⟨hfield.key, hfield.tag htagged⟩)
    rw [List.forall₂_eq_eq_eq] at hsame
    rw [← hsame, htag]

/-- A field keeps what it stands for itself, where it does so in every slot. -/
theorem FieldKeeps.of_self {field : Text × Json}
    (h : ∀ form : Form, Keeps form.decode field.2 field.2) : FieldKeeps slots tagged field field :=
  ⟨rfl, fun slot _ _ => h slot.form, fun _ => id, id, fun _ _ => rfl⟩

/-- Permuted fields keep what they stand for. -/
theorem FieldsKeep.of_perm (h : fields.Perm others)
    (hself : ∀ (json : Json) (form : Form), Keeps form.decode json json) :
    FieldsKeep slots tagged fields others where
  values slot _ :=
    Slot.keeps_of_perm (valuesAt_perm slot.key h) fun value _ => hself value slot.form
  passed hpassed field hfield := hpassed field (h.mem_iff.mpr hfield)
  whole hwhole field hfield := hwhole field (h.mem_iff.mpr hfield)
  tag _ tag htag := by
    have hperm := valuesAt_perm tagName h
    rw [htag] at hperm
    exact List.singleton_perm.mp hperm |>.symm

end Fields

/-! ### The items of an array -/

section Items

variable {slots : List Slot} {items : List Json}

/-- Items keep what they stand for themselves, where each does so in every slot. -/
theorem ItemsKeep.of_self (h : ∀ item ∈ items, ∀ form : Form, Keeps form.decode item item) :
    ItemsKeep slots items items where
  fields := .of_forall₂ <| List.forall₂_same.mpr fun _ hfield =>
    .of_self (h _ (List.of_mem_zip hfield).2)
  surplus := rfl
  whole := id

end Items

/-! ### Values that keep themselves -/

/-- What stands for an object is one or an array. -/
theorem ObjectKind.exists_of_decode {kind : ObjectKind} {origin : Origin} {json : Json}
    {result : kind.Value} (h : kind.decode origin json = .ok result) :
    (∃ fields, json = .object fields) ∨ ∃ items, json = .array items := by
  cases json with
  | object fields => exact .inl ⟨fields, rfl⟩
  | array items => exact .inr ⟨items, rfl⟩
  | _ => cases kind <;> exact absurd h nofun

/-- An array that begins with no tag stands for no object that has one. -/
theorem ObjectKind.decode_nil_ne_ok {kind : ObjectKind} (h : kind.isTagged = true)
    (origin : Origin) (result : kind.Value) : kind.decode origin (.array []) ≠ .ok result := by
  obtain ⟨_, _, _, htagged⟩ := ObjectKind.exists_isTagged h
  intro hresult
  obtain ⟨_, htag, -⟩ := (htagged.array origin [] result).mp hresult
  obtain ⟨_, _, _, hitems, -⟩ := exists_of_arrayTag htag
  exact absurd hitems nofun

/-- An array that stands for an object keeps itself where its items do. -/
theorem ObjectKind.keeps_array_self {kind : ObjectKind} {items : List Json}
    (h : ∀ item ∈ items, ∀ form : Form, Keeps form.decode item item) :
    Keeps kind.decode (.array items) (.array items) := by
  cases htagged : kind.isTagged with
  | false => exact ObjectKind.keeps_array htagged (.of_self h)
  | true =>
    cases items with
    | nil =>
      intro origin target _ _ result hresult
      exact absurd hresult (ObjectKind.decode_nil_ne_ok htagged origin result)
    | cons tag rest =>
      exact ObjectKind.keeps_array_tag htagged
        (.of_self fun item hitem => h item (List.mem_cons_of_mem _ hitem))

/-- **Every value is decoded to the same wherever it comes from**, unless it nests too deeply.

**Proof sketch.** By induction on the depth of the value, since what stands in an object may be of
any form, and then on the form, since a value that may be null is no deeper than the value. -/
theorem keeps_self (json : Json) (form : Form) : Keeps form.decode json json := by
  induction hdepth : json.depth using Nat.strongRecOn generalizing json form with
  | ind bound ih =>
    induction form with
    | text | path | flag => exact keeps_of_forall_eq fun _ _ => by cases json <;> rfl
    | word32 =>
      exact keeps_of_forall_eq fun _ _ => by
        cases json with
        | number value => cases value <;> rfl
        | _ => rfl
    | list item =>
      cases json with
      | array items =>
        exact keeps_list (List.forall₂_same.mpr fun value hvalue =>
          ih _ (hdepth ▸ depth_lt_array hvalue) value item rfl)
      | _ =>
        intro origin target _ _ result hresult
        exact absurd hresult (mismatch_ne_ok _ _ result)
    | optional item hitem =>
      by_cases hnull : json = .null
      · subst hnull
        exact keeps_of_forall_eq fun _ _ => rfl
      · exact keeps_optional hnull hnull hitem
    | object kind =>
      cases json with
      | object fields =>
        exact ObjectKind.keeps_object (.of_forall₂ (List.forall₂_same.mpr fun field hfield =>
          .of_self fun form => ih _ (hdepth ▸ depth_lt_object hfield) field.2 form rfl))
      | array items =>
        exact ObjectKind.keeps_array_self fun item hitem form =>
          ih _ (hdepth ▸ depth_lt_array hitem) item form rfl
      | _ =>
        intro origin target _ _ result hresult
        obtain ⟨_, hjson⟩ | ⟨_, hjson⟩ := ObjectKind.exists_of_decode hresult <;> cases hjson

/-- The values of a slot keep what they stand for themselves. -/
theorem Slot.keeps_self (slot : Slot) (values : List Json) : slot.Keeps values values :=
  Slot.keeps_of_forall₂ <| List.forall₂_same.mpr fun value _ =>
    Interchange.keeps_self value slot.form

/-! ### One field more or less -/

section OneField

variable {slots : List Slot} {tagged : Bool} {fields : List (Text × Json)} {key : Text}
  {value : Json}

/-- A field of unknown name can be added. -/
theorem FieldsKeep.add (hkey : ∀ slot ∈ slots, slot.key ≠ key)
    (htag : tagged = true → key ≠ tagName) (hvalue : IsValue value) :
    FieldsKeep slots tagged fields ((key, value) :: fields) where
  values slot hslot := by
    rw [valuesAt_cons_of_ne (hkey slot hslot).symm]
    exact slot.keeps_self _
  passed hpassed := List.forall_mem_cons.mpr ⟨fun _ => hvalue.passOver_eq_ok, hpassed⟩
  whole hwhole := List.forall_mem_cons.mpr ⟨fun _ => hvalue, hwhole⟩
  tag htagged tag htag' := by rw [valuesAt_cons_of_ne (htag htagged), htag']

/-- A field of unknown name can be removed. -/
theorem FieldsKeep.remove (hkey : ∀ slot ∈ slots, slot.key ≠ key)
    (htag : tagged = true → key ≠ tagName) :
    FieldsKeep slots tagged ((key, value) :: fields) fields where
  values slot hslot := by
    rw [valuesAt_cons_of_ne (hkey slot hslot).symm]
    exact slot.keeps_self _
  passed hpassed := (List.forall_mem_cons.mp hpassed).2
  whole hwhole := (List.forall_mem_cons.mp hwhole).2
  tag htagged tag htag' := by rwa [valuesAt_cons_of_ne (htag htagged)] at htag'

variable {slot : Slot} {json : Json}

/-- Slots of the same name are the same. -/
theorem eq_of_key_eq (hnodup : (slots.map Slot.key).Nodup) (hslot : slot ∈ slots) {other : Slot}
    (hother : other ∈ slots) (h : other.key = slot.key) : other = slot :=
  List.inj_on_of_nodup_map hnodup hother hslot h

/-- A value that stands for the default of a slot can be written out where the slot is left out. -/
theorem FieldsKeep.writeOut (hnodup : (slots.map Slot.key).Nodup) (hslot : slot ∈ slots)
    (htag : tagged = true → slot.key ≠ tagName) (hdefault : slot.IsDefault json)
    (habsent : valuesAt slot.key fields = []) :
    FieldsKeep slots tagged fields ((slot.key, json) :: fields) where
  values other hother := by
    by_cases hkey : other.key = slot.key
    · obtain rfl := eq_of_key_eq hnodup hslot hother hkey
      rw [valuesAt_cons_self, habsent]
      exact Slot.keeps_default hdefault
    · rw [valuesAt_cons_of_ne (Ne.symm hkey)]
      exact other.keeps_self _
  passed hpassed := List.forall_mem_cons.mpr ⟨fun h => absurd rfl (h slot hslot), hpassed⟩
  whole hwhole := by
    obtain ⟨_, -, hvalue, -⟩ := hdefault
    exact List.forall_mem_cons.mpr ⟨fun _ => hvalue, hwhole⟩
  tag htagged tag htag' := by rw [valuesAt_cons_of_ne (htag htagged), htag']

/-- A value that stands for the default of a slot can be left out. -/
theorem FieldsKeep.leaveOut {value : slot.form.Value} (hnodup : (slots.map Slot.key).Nodup)
    (hslot : slot ∈ slots) (htag : tagged = true → slot.key ≠ tagName)
    (hvalue : slot.form.decode .content json = .ok value) (hdefault : slot.fallback = some value) :
    FieldsKeep slots tagged ((slot.key, json) :: fields) fields where
  values other hother := by
    by_cases hkey : other.key = slot.key
    · obtain rfl := eq_of_key_eq hnodup hslot hother hkey
      rw [valuesAt_cons_self]
      exact Slot.keeps_without hvalue hdefault (Interchange.keeps_self json other.form)
    · rw [valuesAt_cons_of_ne (Ne.symm hkey)]
      exact other.keeps_self _
  passed hpassed := (List.forall_mem_cons.mp hpassed).2
  whole hwhole := (List.forall_mem_cons.mp hwhole).2
  tag htagged tag htag' := by rwa [valuesAt_cons_of_ne (htag htagged)] at htag'

/-- A field keeps another value of its slot where that is kept. -/
theorem FieldKeeps.of_slot (hnodup : (slots.map Slot.key).Nodup) (hslot : slot ∈ slots)
    (htag : tagged = true → slot.key ≠ tagName) {other : Json}
    (hkeep : Keeps slot.form.decode json other) (hwhole : IsValue json → IsValue other) :
    FieldKeeps slots tagged (slot.key, json) (slot.key, other) where
  key := rfl
  value same hsame hkey := by
    obtain rfl := eq_of_key_eq hnodup hslot hsame hkey
    exact hkeep
  passed hunknown := absurd rfl (hunknown slot hslot)
  whole := hwhole
  tag htagged hkey := absurd hkey (htag htagged)

/-- Items keep others where one of them keeps another value of its slot. -/
theorem ItemsKeep.inPlace {first rest : List Slot} {before after : List Json} {other : Json}
    (hnodup : ((first ++ slot :: rest).map Slot.key).Nodup) (hlength : before.length = first.length)
    (hkeep : Keeps slot.form.decode json other) (hwhole : IsValue json → IsValue other) :
    ItemsKeep (first ++ slot :: rest) (before ++ json :: after) (before ++ other :: after) where
  fields := by
    have hzip : ∀ item, ((first ++ slot :: rest).map Slot.key).zip (before ++ item :: after) =
        (first.map Slot.key).zip before ++ (slot.key, item) :: (rest.map Slot.key).zip after := by
      intro item
      rw [List.map_append, List.zip_append (by rw [List.length_map, hlength])]
      rfl
    rw [hzip, hzip]
    have hself : ∀ fields : List (Text × Json), List.Forall₂
        (FieldKeeps (first ++ slot :: rest) false) fields fields := fun _ =>
      List.forall₂_same.mpr fun field _ => .of_self (Interchange.keeps_self field.2)
    have hslot : slot ∈ first ++ slot :: rest := by simp
    have htag : false = true → slot.key ≠ tagName := fun h => absurd h Bool.false_ne_true
    exact .of_forall₂ (List.rel_append (hself _)
      (.cons (.of_slot hnodup hslot htag hkeep hwhole) (hself _)))
  surplus := by
    have hdrop : (first ++ slot :: rest).length = before.length + (rest.length + 1) := by
      rw [List.length_append, List.length_cons, hlength]
    rw [hdrop]
    simp [List.drop_append]
  whole hvalues := by
    simp only [List.forall_mem_append, List.forall_mem_cons] at hvalues ⊢
    exact ⟨hvalues.1, hwhole hvalues.2.1, hvalues.2.2⟩

end OneField

/-! ### Alterations -/

/-- A name is that of no slot of an object, nor that of its tag if it has one. -/
def ObjectKind.Unknown (kind : ObjectKind) (fields : List (Text × Json)) (key : Text) : Prop :=
  (∀ slot ∈ kind.slots (tag? fields), slot.key ≠ key) ∧ (kind.isTagged = true → key ≠ tagName)

instance (kind : ObjectKind) (fields : List (Text × Json)) (key : Text) :
    Decidable (kind.Unknown fields key) :=
  inferInstanceAs (Decidable (_ ∧ _))

/-- One alteration of the presentation of a value, at any depth. -/
inductive Alters : Form → Json → Json → Prop
  /-- The fields of an object are permuted. -/
  | permute {kind : ObjectKind} {fields others : List (Text × Json)} (h : fields.Perm others) :
      Alters (.object kind) (.object fields) (.object others)
  /-- A field of unknown name is added. -/
  | add {kind : ObjectKind} {fields : List (Text × Json)} {key : Text} {value : Json}
      (hkey : kind.Unknown fields key) (hvalue : IsValue value) :
      Alters (.object kind) (.object fields) (.object ((key, value) :: fields))
  /-- A field of unknown name is removed. -/
  | remove {kind : ObjectKind} {fields : List (Text × Json)} {key : Text} {value : Json}
      (hkey : kind.Unknown fields key) :
      Alters (.object kind) (.object ((key, value) :: fields)) (.object fields)
  /-- The default of a slot is written out. -/
  | writeOut {kind : ObjectKind} {fields : List (Text × Json)} (slot : Slot) {json : Json}
      (hslot : slot ∈ kind.slots (tag? fields)) (hdefault : slot.IsDefault json)
      (habsent : valuesAt slot.key fields = []) :
      Alters (.object kind) (.object fields) (.object ((slot.key, json) :: fields))
  /-- The default of a slot is left out. -/
  | leaveOut {kind : ObjectKind} {fields : List (Text × Json)} (slot : Slot) {json : Json}
      {value : slot.form.Value} (hslot : slot ∈ kind.slots (tag? fields))
      (hvalue : slot.form.decode .content json = .ok value)
      (hdefault : slot.fallback = some value) :
      Alters (.object kind) (.object ((slot.key, json) :: fields)) (.object fields)
  /-- The value of a slot is altered. -/
  | inField {kind : ObjectKind} {fields : List (Text × Json)} (slot : Slot) {json other : Json}
      (hslot : slot ∈ kind.slots (tag? fields)) (h : Alters slot.form json other) :
      Alters (.object kind) (.object ((slot.key, json) :: fields))
        (.object ((slot.key, other) :: fields))
  /-- An item of an array of values of one form is altered. -/
  | inItem {item : Form} {before after : List Json} {json other : Json}
      (h : Alters item json other) :
      Alters (.list item) (.array (before ++ json :: after)) (.array (before ++ other :: after))
  /-- A value that may be null is altered. -/
  | inOptional {item : Form} {json other : Json} (h : Alters item json other) :
      Alters (.optional item) json other
  /-- The value of a slot is altered in an array that stands for an object. -/
  | inPlace {kind : ObjectKind} {first rest : List Slot} (slot : Slot) {before after : List Json}
      {json other : Json} (hkind : kind.isTagged = false)
      (hslots : kind.slots none = first ++ slot :: rest) (hlength : before.length = first.length)
      (h : Alters slot.form json other) :
      Alters (.object kind) (.array (before ++ json :: after)) (.array (before ++ other :: after))
  /-- The value of a slot is altered in an array that begins with a tag. -/
  | besideTag {kind : ObjectKind} {first rest : List Slot} (slot : Slot) {tag : Json}
      {before after : List Json} {json other : Json} (hkind : kind.isTagged = true)
      (hslots : kind.slots (some tag) = first ++ slot :: rest)
      (hlength : before.length = first.length) (h : Alters slot.form json other) :
      Alters (.object kind) (.array (tag :: (before ++ json :: after)))
        (.array (tag :: (before ++ other :: after)))

/-- One value is another one presented differently. -/
def Rearranges (form : Form) : Json → Json → Prop :=
  Relation.ReflTransGen (Alters form)

namespace ObjectKind

variable {kind : ObjectKind}

/-- A field that is not the tag does not change the slots. -/
theorem slots_cons {key : Text} (htag : kind.isTagged = true → key ≠ tagName) (value : Json)
    (fields : List (Text × Json)) :
    kind.slots (tag? ((key, value) :: fields)) = kind.slots (tag? fields) := by
  cases htagged : kind.isTagged with
  | false => cases kind <;> first | rfl | exact absurd htagged nofun
  | true => rw [tag?, valuesAt_cons_of_ne (htag htagged), ← tag?]

end ObjectKind

section Alters

variable {form : Form} {json other : Json}

/-- What is altered is an object or an array, and stays one. -/
theorem Alters.ne_null (h : Alters form json other) : json ≠ .null ∧ other ≠ .null := by
  induction h with
  | inOptional _ ih => exact ih
  | _ => exact ⟨nofun, nofun⟩

/-- What is altered stays a value. -/
theorem Alters.isValue (h : Alters form json other) (hvalue : IsValue json) : IsValue other := by
  induction h with
  | permute h =>
    rw [isValue_object_iff] at hvalue ⊢
    exact fun field hfield => hvalue field (h.mem_iff.mpr hfield)
  | add _ hadded =>
    rw [isValue_object_iff] at hvalue ⊢
    exact List.forall_mem_cons.mpr ⟨hadded, hvalue⟩
  | remove | leaveOut =>
    rw [isValue_object_iff] at hvalue ⊢
    exact (List.forall_mem_cons.mp hvalue).2
  | writeOut _ _ hdefault _ =>
    obtain ⟨_, -, hwritten, -⟩ := hdefault
    rw [isValue_object_iff] at hvalue ⊢
    exact List.forall_mem_cons.mpr ⟨hwritten, hvalue⟩
  | inField _ _ _ ih =>
    rw [isValue_object_iff, List.forall_mem_cons] at hvalue ⊢
    exact ⟨ih hvalue.1, hvalue.2⟩
  | inItem _ ih | inPlace _ _ _ _ _ ih =>
    rw [isValue_array_iff, List.forall_mem_append, List.forall_mem_cons] at hvalue ⊢
    exact ⟨hvalue.1, ih hvalue.2.1, hvalue.2.2⟩
  | inOptional _ ih => exact ih hvalue
  | besideTag _ _ _ _ _ ih =>
    rw [isValue_array_iff, List.forall_mem_cons, List.forall_mem_append,
      List.forall_mem_cons] at hvalue ⊢
    exact ⟨hvalue.1, hvalue.2.1, ih hvalue.2.2.1, hvalue.2.2.2⟩

/-- **One alteration keeps what a value is decoded to.** -/
theorem Alters.keeps (h : Alters form json other) : Keeps form.decode json other := by
  induction h with
  | permute h => exact ObjectKind.keeps_object (.of_perm h keeps_self)
  | add hkey hvalue => exact ObjectKind.keeps_object (.add hkey.1 hkey.2 hvalue)
  | remove hkey =>
    refine ObjectKind.keeps_object (.remove ?_ hkey.2)
    rw [ObjectKind.slots_cons hkey.2]
    exact hkey.1
  | writeOut _ hslot hdefault habsent =>
    exact ObjectKind.keeps_object (.writeOut (ObjectKind.nodup_keys _ _) hslot
      (fun htagged => ObjectKind.key_ne_tagName htagged hslot) hdefault habsent)
  | leaveOut _ hslot hvalue hdefault =>
    have htag := fun htagged => ObjectKind.key_ne_tagName htagged hslot
    refine ObjectKind.keeps_object (.leaveOut (ObjectKind.nodup_keys _ _) ?_ htag hvalue hdefault)
    rwa [ObjectKind.slots_cons htag]
  | inField _ hslot h ih =>
    have htag := fun htagged => ObjectKind.key_ne_tagName htagged hslot
    refine ObjectKind.keeps_object (.of_forall₂ (.cons
      (.of_slot (ObjectKind.nodup_keys _ _) ?_ htag ih h.isValue)
      (List.forall₂_same.mpr fun field _ => .of_self (keeps_self field.2))))
    rwa [ObjectKind.slots_cons htag]
  | inItem _ ih =>
    exact keeps_list (List.rel_append (List.forall₂_same.mpr fun value _ => keeps_self value _)
      (.cons ih (List.forall₂_same.mpr fun value _ => keeps_self value _)))
  | inOptional h ih => exact keeps_optional h.ne_null.1 h.ne_null.2 ih
  | @inPlace kind _ _ _ _ _ _ _ hkind hslots hlength h ih =>
    have hnodup := hslots ▸ kind.nodup_keys none
    refine ObjectKind.keeps_array hkind ?_
    rw [hslots]
    exact .inPlace hnodup hlength ih h.isValue
  | @besideTag kind _ _ _ tag _ _ _ _ hkind hslots hlength h ih =>
    have hnodup := hslots ▸ kind.nodup_keys (some tag)
    refine ObjectKind.keeps_array_tag hkind ?_
    rw [hslots]
    exact .inPlace hnodup hlength ih h.isValue

end Alters

/-! ### Rearrangements -/

section Rearranges

variable {form : Form} {json other : Json}

/-- The value of a slot may be rearranged. -/
theorem Rearranges.inField {kind : ObjectKind} {fields : List (Text × Json)} (slot : Slot)
    (hslot : slot ∈ kind.slots (tag? fields)) (h : Rearranges slot.form json other) :
    Rearranges (.object kind) (.object ((slot.key, json) :: fields))
      (.object ((slot.key, other) :: fields)) :=
  Relation.ReflTransGen.lift (fun value => Json.object ((slot.key, value) :: fields))
    (fun _ _ => Alters.inField slot hslot) _ _ h

/-- An item of an array may be rearranged. -/
theorem Rearranges.inItem (before after : List Json) (h : Rearranges form json other) :
    Rearranges (.list form) (.array (before ++ json :: after))
      (.array (before ++ other :: after)) :=
  Relation.ReflTransGen.lift (fun value => Json.array (before ++ value :: after))
    (fun _ _ => Alters.inItem) _ _ h

/-- **A rearranged value is decoded to the same**, where it may nest any number of levels. -/
theorem Rearranges.decode_eq_ok {origin : Origin} (hadmits : ∀ json, origin.Admits json)
    (h : Rearranges form json other) {result : form.Value}
    (hresult : form.decode origin json = .ok result) : form.decode origin other = .ok result := by
  induction h with
  | refl => exact hresult
  | tail _ hstep ih => exact hstep.keeps (.refl origin) (hadmits _) result ih

/-- **Decoding ignores presentation.** Where a value is decoded as a type, a member, a listing or
any other kind of object, and it is rearranged in any number of alterations at any depth, it is
decoded to the same. Where it comes from a text and is made to nest more levels than a text may, it
may not be decoded at all, but never to anything else. What is added is a value as a whole; see
`addedField_refused` for what happens with others.

**Proof sketch.** One alteration keeps what a value is decoded to, and so does any number of them
where levels do not count. What a text gives is what the same value gives there, as long as it is
decoded at all. -/
theorem decode_rearranged {kind : ObjectKind} (h : Rearranges (.object kind) json other)
    {origin : Origin} {result : kind.Value} (hresult : kind.decode origin json = .ok result) :
    (origin.Admits other → kind.decode origin other = .ok result) ∧
      ∀ found, kind.decode origin other = .ok found → found = result := by
  -- the alterations in between may nest too deeply for a text, so that they are followed elsewhere
  obtain ⟨whole, hadmits, hout, hback⟩ : ∃ whole : Origin, (∀ json, whole.Admits json) ∧
      origin.CarriesOver whole ∧ whole.CarriesOver origin := by
    cases origin with
    | text levels => exact ⟨.value, fun _ => trivial, nofun, nofun⟩
    | value => exact ⟨.value, fun _ => trivial, .refl _, .refl _⟩
    | content => exact ⟨.content, fun _ => trivial, .refl _, .refl _⟩
  have hwhole := keeps_self json (.object kind) hout (hadmits json) result hresult
  have hother := h.decode_eq_ok hadmits hwhole
  refine ⟨fun hfits => keeps_self other (.object kind) hback hfits result hother, ?_⟩
  intro found hfound
  have hsame := keeps_self other (.object kind) hout (hadmits other) found hfound
  exact Except.ok.inj (hsame.symm.trans hother)

end Rearranges

/-- A type without anything but its name. -/
def namedOnly : Json :=
  record [("name", .string "A".toList)]

/-- An array type with an empty namespace. -/
def plainArray : Json :=
  record [("name", .string "A[]".toList), ("namespace", .string []),
    ("shape", record [("kind", .string "array".toList), ("element", namedOnly),
      ("rank", .number (.integer 1))])]

/-- The same type without the namespace and with the mark of an interface, in whose shape the tag
stands last, behind a field that only named types have. -/
def rearrangedArray : Json :=
  record [("is_interface", .boolean false),
    ("shape", record [("declaring", .boolean true), ("element", namedOnly),
      ("rank", .number (.integer 1)), ("kind", .string "array".toList)]),
    ("name", .string "A[]".toList)]

/-- The array type is presented differently. -/
theorem rearranges_plainArray :
    Rearranges (.object .type) plainArray rearrangedArray := by
  have hshape : Rearranges (.object .shape)
      (record [("kind", .string "array".toList), ("element", namedOnly),
        ("rank", .number (.integer 1))])
      (record [("declaring", .boolean true), ("element", namedOnly),
        ("rank", .number (.integer 1)), ("kind", .string "array".toList)]) :=
    .tail (.single (.permute (List.perm_append_singleton _ [_, _]).symm))
      (.add (by decide) (.boolean true))
  refine .head (.permute (List.perm_append_singleton _ [_, _]).symm) ?_
  refine .head (.leaveOut (.textOrEmpty "namespace") (.tail _ (.head _)) rfl rfl) ?_
  refine (Rearranges.inField .shape (.tail _ (.tail _ (.tail _ (.head _)))) hshape).trans ?_
  exact .single (.writeOut (.mark "is_interface") (.tail _ (.tail _ (.head _)))
    (Slot.isDefault rfl) rfl)

/-- A listing with a property of an array type. -/
def plainDocument : Json :=
  record [("owner", .string "A.dll".toList), ("types", .array [
    record [("type", namedOnly), ("members", .array [
      record [("kind", .string "property".toList), ("name", .string "P".toList),
        ("declaring", plainArray)]])]])]

/-- The same listing, with parameters on the property and its fields, tag included, turned round. -/
def rearrangedDocument : Json :=
  record [("types", .array [
    record [("members", .array [
      record [("parameters", .array [.null]), ("declaring", rearrangedArray),
        ("name", .string "P".toList), ("kind", .string "property".toList)]]),
      ("type", namedOnly)]]), ("owner", .string "A.dll".toList)]

/-- The listing is presented differently. -/
theorem rearranges_plainDocument :
    Rearranges (.object .listing) plainDocument rearrangedDocument := by
  have hmember : Rearranges (.object .member)
      (record [("kind", .string "property".toList), ("name", .string "P".toList),
        ("declaring", plainArray)])
      (record [("parameters", .array [.null]), ("declaring", rearrangedArray),
        ("name", .string "P".toList), ("kind", .string "property".toList)]) := by
    refine .head (.permute (List.reverse_perm [_, _, _]).symm) ?_
    refine (Rearranges.inField (.required "declaring" (.object .type)) (.tail _ (.head _))
      rearranges_plainArray).trans ?_
    exact .single (.add (by decide) (.array (List.forall_mem_singleton.mpr .null)))
  refine .head (.permute (List.Perm.swap _ _ _)) ?_
  refine Rearranges.inField (.many "types" (.object .typeListing)) (.tail _ (.head _)) ?_
  refine Rearranges.inItem [] [] ?_
  refine .head (.permute (List.Perm.swap _ _ _)) ?_
  refine Rearranges.inField (.many "members" (.object .member)) (.tail _ (.head _)) ?_
  exact Rearranges.inItem [] [] hmember

/-- Both are decoded to the same listing. -/
theorem decode_rearranged_plainDocument : ∃ found : SymbolListing,
    Rearranges (.object .listing) plainDocument rearrangedDocument ∧
      ObjectKind.listing.decode .document plainDocument = .ok found ∧
      Origin.document.Admits rearrangedDocument ∧
      ObjectKind.listing.decode .document rearrangedDocument = .ok found ∧
      found.types.map (fun entry => entry.members.map Member.name) = [["P".toList]] := by
  have hdecode : ObjectKind.listing.decode .document plainDocument = .ok
      { owner := "A.dll".toList
        types := [{
          type := .plain [] "A".toList
          members := [.property {
            name := "P".toList
            declaring := .array { name := "A[]".toList } (.plain [] "A".toList) 1 }] }] } := rfl
  have hadmits : Origin.document.Admits rearrangedDocument := by
    show depth rearrangedDocument ≤ 127
    decide
  exact ⟨_, rearranges_plainDocument, hdecode, hadmits,
    (decode_rearranged rearranges_plainDocument hdecode).1 hadmits, rfl⟩

/-! ### Presentations that are refused -/

/-- Arrays one in another, the given number of them below the outermost. -/
def nestedArrays : Nat → Json
  | 0 => .array []
  | levels + 1 => .array [nestedArrays levels]

/-- Arrays one in another are a value. -/
theorem isValue_nestedArrays (levels : Nat) : IsValue (nestedArrays levels) := by
  induction levels with
  | zero => exact .array nofun
  | succ levels ih => exact .array (List.forall_mem_singleton.mpr ih)

/-- A named type with some fields before the tag of its shape. -/
def shapedType (fields : List (Text × Json)) : Json :=
  record [("shape", .object (fields ++ [("kind".toList, .string "named".toList)])),
    ("name", .string "A".toList)]

/-- A field of unknown name can be added to the shape. -/
theorem rearranges_shapedType {value : Json} (h : IsValue value) :
    Rearranges (.object .type) (shapedType []) (shapedType [("extra".toList, value)]) :=
  Rearranges.inField .shape (.tail _ (.tail _ (.tail _ (.head _)))) (.single (.add (by decide) h))

set_option maxRecDepth 8000 in
/-- **Additions with which a text is refused.** A type is read from a text. With a field of unknown
name in its shape that holds 127 arrays one in another, the same type is refused in a text as nested
too deeply, though not as a value. With one that holds a literal that stands for no value, it is
refused as well. -/
theorem addedField_refused :
    let found := TypeTerm.plain [] "A".toList
    let deeper := shapedType [("extra".toList, nestedArrays 126)]
    ObjectKind.type.decode .document (shapedType []) = .ok found ∧
      Rearranges (.object .type) (shapedType []) deeper ∧
      IsValue (nestedArrays 126) ∧
      ObjectKind.type.decode .document deeper = .error (.text .malformed) ∧
      ObjectKind.type.decode .value deeper = .ok found ∧
      ObjectKind.type.decode .document (shapedType [("extra".toList, .valueless)]) =
        .error (.text .malformed) :=
  ⟨rfl, rearranges_shapedType (isValue_nestedArrays 126), isValue_nestedArrays 126, rfl, rfl, rfl⟩

end Interchange

end SymbolDocs
