import SymbolDocs.Proofs.Json.Reading
import SymbolDocs.Proofs.Outcome
set_option autoImplicit false

/-!
# Decoding written values

What the decoders of any kind make of values that are written in a text: a value is accepted where
the text may still nest the levels that the value has.

## Main definitions

* `Json.depth` — how many arrays and objects of a value stand one inside the other.
* `Json.Origin.Admits` — a value does not nest too deeply where it comes from.
* `Json.IsValue` — a value has no place in it where a text stops being JSON.
* `Json.Decodes` — a value is decoded wherever it comes from, unless it nests too deeply.

## Main results

* `Json.Origin.Admits.array`, `Json.Origin.Admits.object` — what is entered admits the parts.
* `Json.IsValue.takeUp_eq_ok`, `Json.isValue_of_takeUp` — what can be taken up as a whole.
* `Json.decodes_list` — an array of decoded values is decoded.
* `Json.decodes_record` — a record is decoded from an object, its fields in any way put together.
* `Json.objectTag_cons` — the tag of an object that begins with it.
-/

namespace SymbolDocs

namespace Json

/-! ### Levels -/

mutual

/-- How many arrays and objects of a value stand one inside the other. -/
def depth : Json → Nat
  | .array items => depthItems items + 1
  | .object fields => depthFields fields + 1
  | _ => 0

/-- The depth of the deepest of some items. -/
def depthItems : List Json → Nat
  | [] => 0
  | item :: rest => max (depth item) (depthItems rest)

/-- The depth of the deepest of the values of some fields. -/
def depthFields : List (Text × Json) → Nat
  | [] => 0
  | (_, value) :: rest => max (depth value) (depthFields rest)

end

/-- An item nests no deeper than all the items together. -/
theorem depth_le_of_mem_items {items : List Json} {item : Json} (h : item ∈ items) :
    item.depth ≤ depthItems items := by
  induction items with
  | nil => exact absurd h List.not_mem_nil
  | cons first rest ih =>
    rw [depthItems]
    obtain rfl | h := List.mem_cons.mp h
    · exact Nat.le_max_left _ _
    · exact Nat.le_trans (ih h) (Nat.le_max_right _ _)

/-- The value of a field nests no deeper than all the fields together. -/
theorem depth_le_of_mem_fields {fields : List (Text × Json)} {field : Text × Json}
    (h : field ∈ fields) : field.2.depth ≤ depthFields fields := by
  induction fields with
  | nil => exact absurd h List.not_mem_nil
  | cons first rest ih =>
    obtain ⟨key, value⟩ := first
    rw [depthFields]
    obtain rfl | h := List.mem_cons.mp h
    · exact Nat.le_max_left _ _
    · exact Nat.le_trans (ih h) (Nat.le_max_right _ _)

/-- The items of an array nest less deeply than the array. -/
theorem depth_lt_array {items : List Json} {item : Json} (h : item ∈ items) :
    item.depth < (array items).depth := by
  rw [depth]
  exact Nat.lt_succ_of_le (depth_le_of_mem_items h)

/-- The values in an object nest less deeply than the object. -/
theorem depth_lt_object {fields : List (Text × Json)} {field : Text × Json} (h : field ∈ fields) :
    field.2.depth < (object fields).depth := by
  rw [depth]
  exact Nat.lt_succ_of_le (depth_le_of_mem_fields h)

/-- A value does not nest more levels than may be nested where it comes from. -/
def Origin.Admits : Origin → Json → Prop
  | .text levels, json => json.depth ≤ levels
  | .value, _ => True
  | .content, _ => True

/-- Where a value is admitted that nests one level more than its parts, it can be entered, and the
parts are admitted below. -/
theorem Origin.Admits.enter {origin : Origin} {json : Json} {bound : Nat} (h : origin.Admits json)
    (hdepth : json.depth = bound + 1) :
    ∃ inner, origin.enter = .ok inner ∧ ∀ part : Json, part.depth ≤ bound → inner.Admits part := by
  cases origin with
  | text levels =>
    have hlevels : bound + 1 ≤ levels := hdepth ▸ h
    obtain ⟨levels, rfl⟩ : ∃ less, levels = less + 1 := ⟨levels - 1, by omega⟩
    exact ⟨.text levels, rfl, fun part hpart => Nat.le_trans hpart (Nat.le_of_succ_le_succ hlevels)⟩
  | value => exact ⟨.value, rfl, fun _ _ => trivial⟩
  | content => exact ⟨.content, rfl, fun _ _ => trivial⟩

/-- Where an array is admitted, its items are admitted one level below. -/
theorem Origin.Admits.array {origin : Origin} {items : List Json}
    (h : origin.Admits (.array items)) :
    ∃ inner, origin.enter = .ok inner ∧ ∀ item ∈ items, inner.Admits item := by
  obtain ⟨inner, hinner, hparts⟩ := h.enter (by rw [depth])
  exact ⟨inner, hinner, fun item hitem => hparts item (depth_le_of_mem_items hitem)⟩

/-- Where an object is admitted, the values of its fields are admitted one level below. -/
theorem Origin.Admits.object {origin : Origin} {fields : List (Text × Json)}
    (h : origin.Admits (.object fields)) :
    ∃ inner, origin.enter = .ok inner ∧ ∀ field ∈ fields, inner.Admits field.2 := by
  obtain ⟨inner, hinner, hparts⟩ := h.enter (by rw [depth])
  exact ⟨inner, hinner, fun field hfield => hparts field.2 (depth_le_of_mem_fields hfield)⟩

/-! ### Values taken up as a whole -/

/-- Items are taken up where each of them is. -/
theorem takeUpItems_eq_ok {origin : Origin} {items : List Json}
    (h : ∀ item ∈ items, takeUp origin item = .ok ()) : takeUpItems origin items = .ok () := by
  induction items with
  | nil => rfl
  | cons item items ih =>
    obtain ⟨hitem, hrest⟩ := List.forall_mem_cons.mp h
    rw [takeUpItems, hitem]
    exact ih hrest

/-- Fields are taken up where the value of each of them is. -/
theorem takeUpFields_eq_ok {origin : Origin} {fields : List (Text × Json)}
    (h : ∀ field ∈ fields, takeUp origin field.2 = .ok ()) :
    takeUpFields origin fields = .ok () := by
  induction fields with
  | nil => rfl
  | cons field fields ih =>
    obtain ⟨hfield, hrest⟩ := List.forall_mem_cons.mp h
    rw [takeUpFields, hfield]
    exact ih hrest

/-- A value in which every literal stands for something, and which has no place where a text stops
being JSON. Its numbers may be any. -/
inductive IsValue : Json → Prop
  /-- The null value. -/
  | null : IsValue .null
  /-- A truth value. -/
  | boolean (value : Bool) : IsValue (.boolean value)
  /-- A number. -/
  | number (value : JsonNumber) : IsValue (.number value)
  /-- A string. -/
  | string (value : Text) : IsValue (.string value)
  /-- An array of values. -/
  | array {items : List Json} (h : ∀ item ∈ items, IsValue item) : IsValue (.array items)
  /-- An object of values. -/
  | object {fields : List (Text × Json)} (h : ∀ field ∈ fields, IsValue field.2) :
      IsValue (.object fields)

/-- An array is a value if and only if its items are. -/
theorem isValue_array_iff {items : List Json} :
    IsValue (.array items) ↔ ∀ item ∈ items, IsValue item :=
  ⟨fun | .array h => h, .array⟩

/-- An object is a value if and only if the values of its fields are. -/
theorem isValue_object_iff {fields : List (Text × Json)} :
    IsValue (.object fields) ↔ ∀ field ∈ fields, IsValue field.2 :=
  ⟨fun | .object h => h, .object⟩

/-- A written value is one. -/
theorem Written.isValue {json : Json} (h : Written json) : IsValue json := by
  induction h with
  | null => exact .null
  | boolean value => exact .boolean value
  | number => exact .number _
  | string value => exact .string value
  | array _ ih => exact .array ih
  | object _ ih => exact .object ih

/-- **A value can be taken up as a whole** where it is admitted. -/
theorem IsValue.takeUp_eq_ok {json : Json} (h : IsValue json) {origin : Origin}
    (hadmits : origin.Admits json) : takeUp origin json = .ok () := by
  induction h generalizing origin with
  | null | boolean | number | string => rfl
  | array h ih =>
    obtain ⟨inner, hinner, hitems⟩ := hadmits.array
    rw [takeUp, hinner]
    exact takeUpItems_eq_ok fun item hitem => ih item hitem (hitems item hitem)
  | object h ih =>
    obtain ⟨inner, hinner, hfields⟩ := hadmits.object
    rw [takeUp, hinner]
    exact takeUpFields_eq_ok fun field hfield => ih field hfield (hfields field hfield)

/-- Where items are taken up, each of them is. -/
theorem takeUp_of_takeUpItems {origin : Origin} {items : List Json}
    (h : takeUpItems origin items = .ok ()) : ∀ item ∈ items, takeUp origin item = .ok () := by
  induction items with
  | nil => exact List.forall_mem_nil _
  | cons item items ih =>
    rw [takeUpItems] at h
    obtain ⟨_, hitem, hrest⟩ := bind_eq_ok.mp h
    exact List.forall_mem_cons.mpr ⟨hitem, ih hrest⟩

/-- Where fields are taken up, the value of each of them is. -/
theorem takeUp_of_takeUpFields {origin : Origin} {fields : List (Text × Json)}
    (h : takeUpFields origin fields = .ok ()) :
    ∀ field ∈ fields, takeUp origin field.2 = .ok () := by
  induction fields with
  | nil => exact List.forall_mem_nil _
  | cons field fields ih =>
    rw [takeUpFields] at h
    obtain ⟨_, hfield, hrest⟩ := bind_eq_ok.mp h
    exact List.forall_mem_cons.mpr ⟨hfield, ih hrest⟩

/-- **What can be taken up as a whole is a value.** -/
theorem isValue_of_takeUp {origin : Origin} {json : Json} (h : takeUp origin json = .ok ()) :
    IsValue json := by
  induction hdepth : json.depth using Nat.strongRecOn generalizing origin json with
  | ind bound ih =>
    cases json with
    | null => exact .null
    | boolean value => exact .boolean value
    | number value => exact .number value
    | string value => exact .string value
    | array items =>
      rw [takeUp] at h
      obtain ⟨inner, -, hitems⟩ := bind_eq_ok.mp h
      exact .array fun item hitem =>
        ih _ (hdepth ▸ depth_lt_array hitem) (takeUp_of_takeUpItems hitems item hitem) rfl
    | object fields =>
      rw [takeUp] at h
      obtain ⟨inner, -, hfields⟩ := bind_eq_ok.mp h
      exact .object fun field hfield =>
        ih _ (hdepth ▸ depth_lt_object hfield) (takeUp_of_takeUpFields hfields field hfield) rfl
    | valueless | keyless | unclosed | broken => exact absurd h (by simp [takeUp])

/-- Items are passed over where each of them is. -/
theorem passOverItems_eq_ok {items : List Json} (h : ∀ item ∈ items, passOver item = .ok ()) :
    passOverItems items = .ok () := by
  induction items with
  | nil => rfl
  | cons item items ih =>
    obtain ⟨hitem, hrest⟩ := List.forall_mem_cons.mp h
    rw [passOverItems, hitem]
    exact ih hrest

/-- Fields with values are passed over where the value of each of them is. -/
theorem passOverFields_eq_ok {fields : List (Text × Json)}
    (hvalues : ∀ field ∈ fields, IsValue field.2)
    (h : ∀ field ∈ fields, passOver field.2 = .ok ()) : passOverFields fields = .ok () := by
  induction fields with
  | nil => rfl
  | cons field fields ih =>
    obtain ⟨key, value⟩ := field
    obtain ⟨hvalue, hvalues⟩ := List.forall_mem_cons.mp hvalues
    obtain ⟨hfield, hrest⟩ := List.forall_mem_cons.mp h
    rw [passOverFields, hfield]
    · exact ih hvalues hrest
    · rintro needed rfl
      cases hvalue
    · rintro needed passed rfl
      cases hvalue

/-- A value can be passed over. -/
theorem IsValue.passOver_eq_ok {json : Json} (h : IsValue json) : passOver json = .ok () := by
  induction h with
  | null | boolean | number | string => rfl
  | array h ih => exact passOverItems_eq_ok ih
  | object h ih => exact passOverFields_eq_ok h ih

/-! ### Decoded values -/

/-- A value is decoded to the same result wherever it comes from, unless it nests too deeply. -/
def Decodes {α : Type} (decode : Decoder α) (json : Json) (result : α) : Prop :=
  ∀ origin : Origin, origin.Admits json → decode origin json = .ok result

/-- A value is decoded from its written form, unless it nests too deeply for a text. -/
theorem Decodes.parse_render {α : Type} {decode : Decoder α} {json : Json} {result : α}
    (h : Decodes decode json result) (hwritten : Written json) (hdepth : json.depth ≤ 127) :
    parse decode json.render = .ok result := by
  rw [Json.parse_render hwritten]
  exact h .document hdepth

/-- A string is decoded to its text. -/
@[simp] theorem text_string (origin : Origin) (value : Text) :
    text origin (.string value) = .ok value :=
  rfl

/-- A string is decoded to the path it spells. -/
@[simp] theorem path_string (origin : Origin) (value : Text) :
    path origin (.string value) = .ok value :=
  rfl

/-- A boolean is decoded to itself. -/
@[simp] theorem flag_boolean (origin : Origin) (value : Bool) :
    flag origin (.boolean value) = .ok value :=
  rfl

/-- A text is decoded from the string that holds it. -/
theorem decodes_text (value : Text) : Decodes text (.string value) value :=
  fun origin _ => text_string origin value

/-- A word is decoded from the number that it is. -/
theorem decodes_word32 (value : UInt32) :
    Decodes word32 (.number (.integer value.toNat)) value := by
  intro origin _
  have hbound : (0 : Int) ≤ value.toNat ∧ (value.toNat : Int) < UInt32.size :=
    ⟨Int.natCast_nonneg _, Int.ofNat_lt.mpr value.toNat_lt⟩
  rw [word32, if_pos hbound]
  simp

/-- A value that may be null is decoded as the value, where it is not null. -/
theorem optional_of_ne_null {α : Type} (decode : Decoder α) (origin : Origin) {json : Json}
    (h : json ≠ .null) : optional decode origin json = (decode origin json).map some := by
  cases json <;> first | rfl | exact absurd rfl h

/-- **An array of decoded values is decoded.** -/
theorem decodes_list {α : Type} {decode : Decoder α} {encode : α → Json} {items : List α}
    (h : ∀ item ∈ items, Decodes decode (encode item) item) :
    Decodes (list decode) (.array (items.map encode)) items := by
  intro origin hadmits
  obtain ⟨inner, hinner, hitems⟩ := hadmits.array
  rw [list, hinner]
  show listItems decode inner (items.map encode) = .ok items
  clear hadmits
  induction items with
  | nil => rfl
  | cons item items ih =>
    rw [List.map_cons, List.forall_mem_cons] at hitems
    rw [List.forall_mem_cons] at h
    rw [List.map_cons, listItems, h.1 inner hitems.1, ih h.2 hitems.2]
    rfl

/-! ### Records and tags -/

/-- The entries of an object are its fields, and the fields are admitted. -/
theorem RecordForm.entries_object (form : RecordForm) {origin : Origin}
    {fields : List (Text × Json)} (hadmits : origin.Admits (.object fields)) :
    ∃ inner, form.entries origin (.object fields) = .ok ⟨inner, fields, none⟩ ∧
      ∀ field ∈ fields, inner.Admits field.2 := by
  obtain ⟨inner, hinner, hfields⟩ := hadmits.object
  exact ⟨inner, by rw [entries, hinner]; rfl, hfields⟩

/-- **A record is decoded from an object** where its fields can be put together and finished. -/
theorem decodes_record {α β : Type} {form : RecordForm}
    {put : Origin → β → Text × Json → Except DecodeError β}
    {finish : Entries → β → Except DecodeError α} {fields : List (Text × Json)} {start : β}
    {result : α} (draft : β)
    (hput : ∀ inner : Origin, (∀ field ∈ fields, inner.Admits field.2) →
      fields.foldlM (put inner) start = .ok draft)
    (hfinish : ∀ inner, finish ⟨inner, fields, none⟩ draft = .ok result) :
    Decodes (fun origin json => do
      let entries ← form.entries origin json
      let draft ← entries.fields.foldlM (put entries.origin) start
      finish entries draft) (.object fields) result := by
  intro origin hadmits
  obtain ⟨inner, hentries, hfields⟩ := form.entries_object hadmits
  exact bind_eq_ok.mpr ⟨_, hentries, bind_eq_ok.mpr ⟨draft, hput inner hfields, hfinish inner⟩⟩

/-- No field but the first holds the tag, so that the others are only taken up. -/
theorem tagIn_of_untagged {α : Type} {variants : List (String × α)} {origin : Origin}
    {tag : Option α} {fields : List (Text × Json)} (hplain : ∀ field ∈ fields, field.1 ≠ tagName)
    (htaken : ∀ field ∈ fields, takeUp origin field.2 = .ok ()) :
    tagIn variants origin tag fields = .ok tag := by
  induction fields with
  | nil => rfl
  | cons field fields ih =>
    obtain ⟨hfield, hplain⟩ := List.forall_mem_cons.mp hplain
    obtain ⟨hvalue, htaken⟩ := List.forall_mem_cons.mp htaken
    rw [tagIn, if_neg hfield, hvalue]
    exact ih hplain htaken

/-- **The tag of an object that begins with it.** -/
theorem objectTag_cons {α : Type} {variants : List (String × α)} {name : Text} {value : α}
    (hvariant : variant variants name = .ok value) {origin : Origin}
    {fields : List (Text × Json)} (hplain : ∀ field ∈ fields, field.1 ≠ tagName)
    (hwritten : ∀ field ∈ fields, Written field.2)
    (hadmits : origin.Admits (.object ((tagName, .string name) :: fields))) :
    objectTag variants origin ((tagName, .string name) :: fields) = .ok value := by
  obtain ⟨inner, hinner, hfields⟩ := hadmits.object
  have htaken : ∀ field ∈ fields, takeUp inner field.2 = .ok () := fun field hfield =>
    (hwritten field hfield).isValue.takeUp_eq_ok (hfields field (List.mem_cons_of_mem _ hfield))
  have htag : tagIn variants inner none ((tagName, .string name) :: fields) = .ok (some value) := by
    rw [tagIn, if_pos rfl, fill, tagValue, hvariant]
    exact tagIn_of_untagged hplain htaken
  rw [objectTag, hinner]
  show (tagIn variants inner none _ >>= _) = _
  rw [htag]
  rfl

/-- A field that is the tag is not beside it. -/
theorem untagged_cons_tag (value : Json) (fields : List (Text × Json)) :
    untagged ((tagName, value) :: fields) = untagged fields :=
  List.filter_cons_of_neg (by simp)

/-- A field that is not the tag is beside it. -/
theorem untagged_cons_of_ne {key : Text} (h : key ≠ tagName) (value : Json)
    (fields : List (Text × Json)) :
    untagged ((key, value) :: fields) = (key, value) :: untagged fields :=
  List.filter_cons_of_pos (by simpa using h)

/-- The fields beside a tag that stands first. -/
theorem untagged_cons {value : Json} {fields : List (Text × Json)}
    (hplain : ∀ field ∈ fields, field.1 ≠ tagName) :
    untagged ((tagName, value) :: fields) = fields := by
  rw [untagged_cons_tag, untagged, List.filter_eq_self]
  simpa using hplain

end Json

end SymbolDocs
