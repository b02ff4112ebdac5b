import Mathlib.Data.List.Forall2
import SymbolDocs.Proofs.Json.Decoding
set_option autoImplicit false

/-!
# Fields by their names

What a record takes from its fields depends, for each name, only on the values of that name: there
is none, or there is one and it is decoded, or the record is refused. So does the tag of an object.

## Main definitions

* `Json.valuesAt` — the values of the fields of a given name.
* `Json.Collects` — what is held under a name after its values have been met.
* `Json.named?` — the variant that a tag names.
* `Json.Keeps` — where one value is accepted, another is accepted with the same result.

## Main results

* `Json.collects_append_iff`, `Json.Collects.unique` — the values of one name, met in two runs.
* `Json.exists_of_objectTag`, `Json.objectTag_of_valuesAt` — the tag of an object is the only value
  of its name, and the other values are taken up.
* `Json.keeps_list` — an array keeps what its items keep.
-/

namespace SymbolDocs

namespace Json

/-! ### The values of one name -/

/-- The values of the fields of a given name, in order. -/
def valuesAt (key : Text) (fields : List (Text × Json)) : List Json :=
  fields.filterMap fun field => if field.1 = key then some field.2 else none

section ValuesAt

variable {key other : Text} {fields : List (Text × Json)}

/-- No field, no value. -/
@[simp] theorem valuesAt_nil (key : Text) : valuesAt key [] = [] :=
  rfl

/-- A field with the name gives its value. -/
@[simp] theorem valuesAt_cons_self (key : Text) (value : Json) (fields : List (Text × Json)) :
    valuesAt key ((key, value) :: fields) = value :: valuesAt key fields := by
  simp [valuesAt]

/-- A field with another name gives none. -/
theorem valuesAt_cons_of_ne (h : other ≠ key) (value : Json) (fields : List (Text × Json)) :
    valuesAt key ((other, value) :: fields) = valuesAt key fields := by
  simp [valuesAt, h]

/-- The values of one name are those of the first field and those of the others. -/
theorem valuesAt_cons (key : Text) (field : Text × Json) (fields : List (Text × Json)) :
    valuesAt key (field :: fields) = valuesAt key [field] ++ valuesAt key fields := by
  rw [← List.singleton_append, valuesAt, List.filterMap_append]
  rfl

/-- Fields in another order have the same values under a name, in another order. -/
theorem valuesAt_perm (key : Text) {fields other : List (Text × Json)} (h : fields.Perm other) :
    (valuesAt key fields).Perm (valuesAt key other) :=
  h.filterMap _

/-- The values under a name are those of the fields with that name. -/
theorem mem_valuesAt {value : Json} : value ∈ valuesAt key fields ↔ (key, value) ∈ fields := by
  simp [valuesAt]

/-- The values beside a tag, where their name is not that of the tag. -/
theorem valuesAt_untagged (h : key ≠ tagName) :
    valuesAt key (untagged fields) = valuesAt key fields := by
  induction fields with
  | nil => rfl
  | cons field fields ih =>
    obtain ⟨name, value⟩ := field
    by_cases htag : name = tagName
    · subst htag
      rw [untagged_cons_tag, valuesAt_cons_of_ne h.symm, ih]
    · rw [untagged_cons_of_ne htag, valuesAt_cons, ih, ← valuesAt_cons]

end ValuesAt

/-! ### What is held under a name -/

section Collects

variable {α : Type} {decode : Json → Except DecodeError α} {held result : Option α}

/-- What is held under a name after some values of it have been met: what was held before if there
are none, and otherwise the only value, before which nothing must have been held. -/
inductive Collects (decode : Json → Except DecodeError α) :
    Option α → List Json → Option α → Prop
  /-- No value is met. -/
  | nothing (held : Option α) : Collects decode held [] held
  /-- One value is met. -/
  | value {json : Json} {a : α} (h : decode json = .ok a) : Collects decode none [json] (some a)

/-- Where no value is met, what was held is held. -/
theorem collects_nil_iff : Collects decode held [] result ↔ held = result := by
  constructor
  · rintro ⟨⟩
    rfl
  · rintro rfl
    exact .nothing held

/-- A value is met only where nothing is held and no other value follows. -/
theorem collects_cons_iff {json : Json} {rest : List Json} :
    Collects decode held (json :: rest) result ↔
      held = none ∧ rest = [] ∧ ∃ a, decode json = .ok a ∧ result = some a := by
  constructor
  · rintro ⟨⟩
    exact ⟨rfl, rfl, _, ‹_›, rfl⟩
  · rintro ⟨rfl, rfl, a, ha, rfl⟩
    exact .value ha

/-- The values met in two runs are met one run after the other. -/
theorem collects_append_iff {first second : List Json} :
    Collects decode held (first ++ second) result ↔
      ∃ between, Collects decode held first between ∧ Collects decode between second result := by
  cases first with
  | nil => simp [collects_nil_iff]
  | cons json first =>
    rw [List.cons_append, collects_cons_iff]
    constructor
    · rintro ⟨rfl, hrest, a, ha, rfl⟩
      obtain ⟨rfl, rfl⟩ := List.append_eq_nil_iff.mp hrest
      exact ⟨some a, .value ha, .nothing _⟩
    · rintro ⟨between, hfirst, hsecond⟩
      obtain ⟨rfl, rfl, a, ha, rfl⟩ := collects_cons_iff.mp hfirst
      cases hsecond
      exact ⟨rfl, rfl, a, ha, rfl⟩

/-- One thing is held after some values. -/
theorem Collects.unique {values : List Json} {other : Option α}
    (h : Collects decode held values result) (hother : Collects decode held values other) :
    result = other := by
  cases h with
  | nothing => exact collects_nil_iff.mp hother
  | value ha =>
    obtain ⟨-, -, b, hb, rfl⟩ := collects_cons_iff.mp hother
    exact congrArg some (Except.ok.inj (ha.symm.trans hb))

/-- A slot is filled by one value, where nothing has been held. -/
theorem fill_eq_ok_iff {name : Text} {json : Json} :
    fill name held (fun _ => decode json) = .ok result ↔ Collects decode held [json] result := by
  rw [collects_cons_iff]
  cases held with
  | none =>
    rw [fill, map_eq_ok]
    simp [eq_comm]
  | some a => simp [fill]

end Collects

/-! ### Other origins -/

/-- What is accepted from one origin can be accepted from another. Only in a value that has been
taken up as a whole may a tag be a number. -/
def Origin.CarriesOver (origin other : Origin) : Prop :=
  origin = .content → other = .content

/-- What is accepted from an origin can be accepted from it. -/
theorem Origin.CarriesOver.refl (origin : Origin) : origin.CarriesOver origin :=
  id

/-- What is entered from two origins carries over where they do. -/
theorem Origin.CarriesOver.enter {origin other inner otherInner : Origin}
    (h : origin.CarriesOver other) (hinner : origin.enter = .ok inner)
    (hother : other.enter = .ok otherInner) : inner.CarriesOver otherInner := by
  rintro rfl
  have horigin : origin = .content := by
    match origin, hinner with
    | .content, _ => rfl
    | .text (_ + 1), hinner => exact absurd hinner nofun
  obtain rfl := h horigin
  exact (Except.ok.inj hother).symm

/-- **One value keeps what another is decoded to**, wherever either comes from, unless it nests too
deeply there. -/
def Keeps {α : Type} (decode : Decoder α) (json other : Json) : Prop :=
  ∀ ⦃origin target : Origin⦄, origin.CarriesOver target → target.Admits other →
    ∀ result, decode origin json = .ok result → decode target other = .ok result

section Keeps

variable {α : Type} {decode : Decoder α}

/-- A value that does not tell its origin apart keeps what it is decoded to. -/
theorem keeps_of_forall_eq {json : Json}
    (h : ∀ origin target : Origin, decode origin json = decode target json) :
    Keeps decode json json :=
  fun origin target _ _ result hresult => by rw [← h origin target, hresult]

/-- Some items are decoded as those are that keep them. -/
theorem listItems_keeps {items others : List Json} (h : List.Forall₂ (Keeps decode) items others)
    {origin target : Origin} (hcarries : origin.CarriesOver target)
    (hadmits : ∀ item ∈ others, target.Admits item) {results : List α}
    (hresults : listItems decode origin items = .ok results) :
    listItems decode target others = .ok results := by
  induction h generalizing results with
  | nil => exact hresults
  | cons hitem _ ih =>
    obtain ⟨hfirst, hrest⟩ := List.forall_mem_cons.mp hadmits
    rw [listItems] at hresults ⊢
    obtain ⟨result, hresult, hresults⟩ := bind_eq_ok.mp hresults
    obtain ⟨results, hothers, hdone⟩ := bind_eq_ok.mp hresults
    exact bind_eq_ok.mpr ⟨result, hitem hcarries hfirst result hresult,
      bind_eq_ok.mpr ⟨results, ih hrest hothers, hdone⟩⟩

/-- **An array keeps what its items keep.** -/
theorem keeps_list {items others : List Json} (h : List.Forall₂ (Keeps decode) items others) :
    Keeps (list decode) (.array items) (.array others) := by
  intro origin target hcarries hadmits results hresults
  obtain ⟨inner, hinner, hitems⟩ := hadmits.array
  rw [list] at hresults ⊢
  obtain ⟨entered, hentered, hresults⟩ := bind_eq_ok.mp hresults
  exact bind_eq_ok.mpr
    ⟨inner, hinner, listItems_keeps h (hcarries.enter hentered hinner) hitems hresults⟩

/-- A value that may be null keeps what the value keeps. -/
theorem keeps_optional {json other : Json} (hjson : json ≠ .null) (hother : other ≠ .null)
    (h : Keeps decode json other) : Keeps (optional decode) json other := by
  intro origin target hcarries hadmits result hresult
  rw [optional_of_ne_null _ _ hjson, map_eq_ok] at hresult
  rw [optional_of_ne_null _ _ hother, map_eq_ok]
  obtain ⟨a, ha, hresult⟩ := hresult
  exact ⟨a, h hcarries hadmits a ha, hresult⟩

end Keeps

/-! ### Tags -/

section Tags

variable {α : Type} {variants : List (String × α)}

/-- A value of another form is never accepted. -/
theorem mismatch_ne_ok (expected : Text) (json : Json) (a : α) :
    mismatch expected json ≠ .ok a := by
  cases json <;> exact nofun

/-- The variant that a tag names, by its name or by its number. -/
def named? (variants : List (String × α)) : Json → Option α
  | .string name => (variants.map fun v => (v.1.toList, v.2)).lookup name
  | .number (.integer n) => if 0 ≤ n then variants[n.toNat]?.map Prod.snd else none
  | _ => none

/-- What a tag names of variants that have been changed. -/
theorem named?_map {β : Type} (f : α → β) (tag : Json) :
    named? (variants.map fun v => (v.1, f v.2)) tag = (named? variants tag).map f := by
  unfold named?
  split
  case h_1 name =>
    induction variants with
    | nil => rfl
    | cons v variants ih =>
      simp only [List.map_cons, List.lookup_cons]
      split
      · rfl
      · exact ih
  case h_2 n =>
    by_cases hn : 0 ≤ n
    · simp only [if_pos hn, List.getElem?_map, Option.map_map]
      rfl
    · simp [if_neg hn]
  case h_3 => rfl

/-- **A tag that is accepted names its variant.** -/
theorem named?_of_tagValue {origin : Origin} {tag : Json} {a : α}
    (h : tagValue variants origin tag = .ok a) : named? variants tag = some a := by
  unfold tagValue at h
  split at h
  case h_1 name =>
    rw [variant] at h
    split at h
    case h_1 value hlookup => rw [named?, hlookup, Except.ok.inj h]
    case h_2 => exact absurd h nofun
  case h_2 n =>
    by_cases hn : 0 ≤ n
    · rw [if_pos hn] at h
      rw [named?, if_pos hn]
      cases hfound : variants[n.toNat]? with
      | none => simp [hfound, hn] at h
      | some v =>
        rw [hfound] at h
        exact congrArg some (Except.ok.inj h)
    · simp [hn] at h
  case h_3 => exact absurd h (mismatch_ne_ok _ _ _)

/-- A tag that is accepted from one origin is accepted from another. -/
theorem tagValue_of_carriesOver {origin other : Origin} (hcarries : origin.CarriesOver other)
    {tag : Json} {a : α} (h : tagValue variants origin tag = .ok a) :
    tagValue variants other tag = .ok a := by
  unfold tagValue at h
  split at h
  case h_1 => exact h
  case h_2 =>
    obtain rfl := hcarries rfl
    exact h
  case h_3 => exact absurd h (mismatch_ne_ok _ _ _)

/-- **The tag among some fields** is the only value of its name, and every other value can be taken
up as a whole. -/
theorem tagIn_eq_ok_iff {origin : Origin} {held result : Option α} {fields : List (Text × Json)} :
    tagIn variants origin held fields = .ok result ↔
      Collects (tagValue variants origin) held (valuesAt tagName fields) result ∧
        ∀ field ∈ fields, field.1 ≠ tagName → takeUp origin field.2 = .ok () := by
  induction fields generalizing held with
  | nil => simp [tagIn, collects_nil_iff]
  | cons field fields ih =>
    obtain ⟨key, value⟩ := field
    rw [tagIn, List.forall_mem_cons]
    by_cases hkey : key = tagName
    · subst hkey
      rw [if_pos rfl, valuesAt_cons_self, ← List.singleton_append, collects_append_iff, bind_eq_ok]
      simp [fill_eq_ok_iff, ih, exists_and_right, ← and_assoc]
    · rw [if_neg hkey, valuesAt_cons_of_ne hkey, bind_eq_ok]
      constructor
      · rintro ⟨⟨⟩, hvalue, hrest⟩
        exact ⟨(ih.mp hrest).1, fun _ => hvalue, (ih.mp hrest).2⟩
      · rintro ⟨hcollects, hvalue, hrest⟩
        exact ⟨(), hvalue hkey, ih.mpr ⟨hcollects, hrest⟩⟩

/-- **The tag of an object** is the only value of its name, and the others are values. -/
theorem exists_of_objectTag {origin : Origin} {fields : List (Text × Json)} {a : α}
    (h : objectTag variants origin fields = .ok a) :
    ∃ inner tag, origin.enter = .ok inner ∧ valuesAt tagName fields = [tag] ∧
      tagValue variants inner tag = .ok a ∧
      ∀ field ∈ fields, field.1 ≠ tagName → IsValue field.2 := by
  obtain ⟨inner, hinner, h⟩ := bind_eq_ok.mp h
  obtain ⟨found, hfound, h⟩ := bind_eq_ok.mp h
  obtain ⟨hcollects, htaken⟩ := tagIn_eq_ok_iff.mp hfound
  cases found with
  | none => exact absurd h nofun
  | some b =>
    obtain rfl : b = a := Except.ok.inj h
    generalize hvalues : valuesAt tagName fields = values at hcollects
    cases hcollects with
    | value hb =>
      exact ⟨inner, _, hinner, rfl, hb,
        fun field hfield hkey => isValue_of_takeUp (htaken field hfield hkey)⟩

/-- Where an object is admitted, it has the tag that is the only value of its name, if the others
are values. -/
theorem objectTag_of_valuesAt {origin : Origin} {fields : List (Text × Json)} {tag : Json} {a : α}
    (hadmits : origin.Admits (.object fields)) (htag : valuesAt tagName fields = [tag])
    (hvalue : ∀ inner, origin.enter = .ok inner → tagValue variants inner tag = .ok a)
    (hvalues : ∀ field ∈ fields, field.1 ≠ tagName → IsValue field.2) :
    objectTag variants origin fields = .ok a := by
  obtain ⟨inner, hinner, hfields⟩ := hadmits.object
  have hfound : tagIn variants inner none fields = .ok (some a) := by
    rw [tagIn_eq_ok_iff, htag]
    exact ⟨.value (hvalue inner hinner), fun field hfield hkey =>
      (hvalues field hfield hkey).takeUp_eq_ok (hfields field hfield)⟩
  exact bind_eq_ok.mpr ⟨inner, hinner, bind_eq_ok.mpr ⟨some a, hfound, rfl⟩⟩

/-- The tag of an array is its first item, and the others are values. -/
theorem exists_of_arrayTag {origin : Origin} {items : List Json} {a : α}
    (h : arrayTag variants origin items = .ok a) :
    ∃ inner tag rest, items = tag :: rest ∧ origin.enter = .ok inner ∧
      tagValue variants inner tag = .ok a ∧ ∀ item ∈ rest, IsValue item := by
  cases items with
  | nil =>
    obtain ⟨_, -, h⟩ := bind_eq_ok.mp h
    exact absurd h nofun
  | cons tag rest =>
    obtain ⟨inner, hinner, h⟩ := bind_eq_ok.mp h
    obtain ⟨b, hb, h⟩ := bind_eq_ok.mp h
    obtain ⟨_, htaken, h⟩ := bind_eq_ok.mp h
    obtain rfl : b = a := Except.ok.inj h
    exact ⟨inner, tag, rest, rfl, hinner, hb,
      fun item hitem => isValue_of_takeUp (takeUp_of_takeUpItems htaken item hitem)⟩

/-- Where an array is admitted, it has the tag that is its first item, if the others are values. -/
theorem arrayTag_cons {origin : Origin} {tag : Json} {rest : List Json} {a : α}
    (hadmits : origin.Admits (.array (tag :: rest)))
    (hvalue : ∀ inner, origin.enter = .ok inner → tagValue variants inner tag = .ok a)
    (hvalues : ∀ item ∈ rest, IsValue item) :
    arrayTag variants origin (tag :: rest) = .ok a := by
  obtain ⟨inner, hinner, hitems⟩ := hadmits.array
  have htaken : takeUpItems inner rest = .ok () := takeUpItems_eq_ok fun item hitem =>
    (hvalues item hitem).takeUp_eq_ok (hitems item (List.mem_cons_of_mem _ hitem))
  exact bind_eq_ok.mpr ⟨inner, hinner,
    bind_eq_ok.mpr ⟨a, hvalue inner hinner, bind_eq_ok.mpr ⟨(), htaken, rfl⟩⟩⟩

end Tags

end Json

end SymbolDocs
