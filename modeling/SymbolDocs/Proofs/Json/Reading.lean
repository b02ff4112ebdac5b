import SymbolDocs.Json.Parse
import SymbolDocs.Proofs.Json.Literals
set_option autoImplicit false

/-!
# Reading values back

A value is read back from its compact written form, whatever follows it, unless that goes on with a
number. What is decoded from the text of a value is therefore what is decoded from the value.

## Main definitions

* `Json.Written` — the values that their written form stands for.
* `Json.ReadsBack` — a value is read back from its written form.

## Main results

* `Json.readItems_render`, `Json.readFields_render` — the items of an array and the fields of an
  object are read back from their written forms.
* `Json.Written.readsBack` — every value is read back from its written form.
* `Json.parse_render` — what is decoded from the written form of a value is what is decoded from the
  value.

## Design

The fuel of a reading is bounded by the length of the written form, twice for a value and once more
for the items of an array or the fields of an object, so that the induction is on the value.
-/

namespace SymbolDocs

namespace Json

/-! ### Written values -/

/-- The values that their written form stands for: no place where a text stops being JSON is among
them, and their numbers are integers of 64 bits. -/
inductive Written : Json → Prop
  /-- The null value. -/
  | null : Written .null
  /-- A truth value. -/
  | boolean (value : Bool) : Written (.boolean value)
  /-- An integer. -/
  | number {value : JsonNumber} (h : value.IsWord) : Written (.number value)
  /-- A string. -/
  | string (value : Text) : Written (.string value)
  /-- An array of written values. -/
  | array {items : List Json} (h : ∀ item ∈ items, Written item) : Written (.array items)
  /-- An object of written values. -/
  | object {fields : List (Text × Json)} (h : ∀ field ∈ fields, Written field.2) :
      Written (.object fields)

/-- A value is read back from its written form. -/
def ReadsBack (json : Json) : Prop :=
  ∀ fuel rest, 2 * json.render.length ≤ fuel → EndsNumber rest →
    readValue fuel (json.render ++ rest) = (json, rest)

/-- A character that a written integer begins with is none of those that begin no integer. -/
theorem ne_of_beginsNumber {c d : Char} (h : c = '-' ∨ c.isDigit = true)
    (hd : d ≠ '-' ∧ d.isDigit = false) : c ≠ d := by
  rintro rfl
  rcases h with h | h
  · exact hd.1 h
  · exact absurd h (by simp [hd.2])

/-- A written form begins with no blank and does not close an array. -/
theorem Written.exists_cons {json : Json} (h : Written json) :
    ∃ c text, json.render = c :: text ∧ isSeparator c = false ∧ c ≠ ']' := by
  cases h with
  | null => exact ⟨_, _, rfl, by decide⟩
  | boolean value => cases value <;> exact ⟨_, _, rfl, by decide⟩
  | string value => exact ⟨_, _, rfl, by decide⟩
  | array h => exact ⟨_, _, rfl, by decide⟩
  | object h => exact ⟨_, _, rfl, by decide⟩
  | @number value h =>
    obtain ⟨c, text, htext, hhead⟩ := h.exists_cons
    refine ⟨c, text, htext, ?_, ne_of_beginsNumber hhead (by decide)⟩
    simp [isSeparator, ne_of_beginsNumber hhead]

/-- A text that begins with no blank has none to skip. -/
theorem skipBlanks_cons {c : Char} (h : isSeparator c = false) (text : Text) :
    skipBlanks (c :: text) = c :: text := by
  rw [skipBlanks, List.dropWhile_cons_of_neg (by simp [h])]

/-! ### Values without parts -/

/-- A string literal before other text. -/
theorem quote_append (text rest : Text) :
    quote text ++ rest = '"' :: (text.flatMap escapeChar ++ '"' :: rest) := by
  simp [quote]

/-- A string is read back. -/
theorem readValue_quote (fuel : Nat) (text rest : Text) :
    readValue (fuel + 1) (quote text ++ rest) = (.string text, rest) := by
  rw [quote_append, readValue, skipBlanks_cons (by decide)]
  simp only [if_true, readString_quote]
  rfl

/-- An integer is read back. -/
theorem readValue_number {value : JsonNumber} (h : value.IsWord) {rest : Text}
    (hrest : EndsNumber rest) (fuel : Nat) :
    readValue (fuel + 1) (value.render ++ rest) = (.number value, rest) := by
  obtain ⟨c, text, htext, hhead⟩ := h.exists_cons
  have hread := readNumber_render h hrest
  have hblank : isSeparator c = false := by simp [isSeparator, ne_of_beginsNumber hhead]
  have hsign : (c = '-' || c.isDigit) = true := by simpa using hhead
  rw [htext, List.cons_append] at hread ⊢
  rw [readValue, skipBlanks_cons hblank]
  simp [ne_of_beginsNumber hhead, hsign, hread]

/-- The words for the null value and the truth values are read back. -/
theorem readValue_word (fuel : Nat) (rest : Text) :
    readValue (fuel + 1) (render .null ++ rest) = (.null, rest) ∧
      ∀ value, readValue (fuel + 1) (render (.boolean value) ++ rest) = (.boolean value, rest) := by
  refine ⟨rfl, fun value => ?_⟩
  cases value <;> rfl

/-! ### Arrays -/

/-- An item before the end of an array is the last one. -/
theorem readItems_last {fuel : Nat} {text rest : Text} {item : Json}
    (h : readValue fuel text = (item, ']' :: rest)) :
    readItems (fuel + 1) text = ([item], rest) := by
  rw [readItems, h]
  rfl

/-- An item before a comma is followed by others. -/
theorem readItems_cons {fuel : Nat} {text rest : Text} {item : Json} {c : Char}
    (hblank : isSeparator c = false) (hopen : c ≠ ']')
    (h : readValue fuel text = (item, ',' :: c :: rest)) :
    readItems (fuel + 1) text =
      (item :: (readItems fuel (c :: rest)).1, (readItems fuel (c :: rest)).2) := by
  rw [readItems, h]
  simp only [skipBlanks_cons (show isSeparator ',' = false by decide), skipBlanks_cons hblank,
    if_neg hopen]

/-- The items of an array that begins with one are read behind its bracket. -/
theorem readValue_items {fuel : Nat} {text : Text} {c : Char} (hblank : isSeparator c = false)
    (hopen : c ≠ ']') :
    readValue (fuel + 1) ('[' :: c :: text) =
      (.array (readItems fuel (c :: text)).1, (readItems fuel (c :: text)).2) := by
  rw [readValue, skipBlanks_cons (by decide)]
  simp [skipBlanks_cons hblank]

/-- The written items of an array begin as the first of them does. -/
theorem exists_cons_of_items {items : List Json} (hne : items ≠ [])
    (hwritten : ∀ item ∈ items, Written item) :
    ∃ c text, List.intercalate [','] (renderItems items) = c :: text ∧ isSeparator c = false ∧
      c ≠ ']' := by
  cases items with
  | nil => exact absurd rfl hne
  | cons item items =>
    obtain ⟨c, text, htext, hhead⟩ := (hwritten item List.mem_cons_self).exists_cons
    cases items with
    | nil => exact ⟨c, text, by simp [renderItems, htext], hhead⟩
    | cons second items => exact ⟨c, _, by simp [renderItems, htext]; rfl, hhead⟩

/-- **The items of an array are read back.** -/
theorem readItems_render {items : List Json} (hne : items ≠ [])
    (hwritten : ∀ item ∈ items, Written item) (hitems : ∀ item ∈ items, ReadsBack item)
    (fuel : Nat) (rest : Text)
    (hfuel : 2 * (List.intercalate [','] (renderItems items)).length + 1 ≤ fuel) :
    readItems fuel (List.intercalate [','] (renderItems items) ++ ']' :: rest) = (items, rest) := by
  induction items generalizing fuel with
  | nil => exact absurd rfl hne
  | cons item items ih =>
    obtain ⟨hitem, hothers⟩ := List.forall_mem_cons.mp hitems
    obtain ⟨-, hwritten⟩ := List.forall_mem_cons.mp hwritten
    obtain ⟨fuel, rfl⟩ : ∃ less, fuel = less + 1 := ⟨fuel - 1, by omega⟩
    cases items with
    | nil =>
      have hjoined : List.intercalate [','] (renderItems [item]) = item.render := by
        simp [renderItems]
      rw [hjoined] at hfuel ⊢
      exact readItems_last (hitem fuel _ (by omega) (endsNumber_cons (by decide) rest))
    | cons second items =>
      have hjoined : List.intercalate [','] (renderItems (item :: second :: items)) =
          item.render ++ ',' :: List.intercalate [','] (renderItems (second :: items)) := by
        simp [renderItems]
      obtain ⟨c, text, htext, hblank, hopen⟩ := exists_cons_of_items (List.cons_ne_nil _ _) hwritten
      rw [hjoined, List.length_append, List.length_cons] at hfuel
      have hrest := ih (List.cons_ne_nil _ _) hwritten hothers fuel (by omega)
      rw [htext, List.cons_append] at hrest
      rw [hjoined, htext, List.append_assoc, List.cons_append, List.cons_append,
        readItems_cons hblank hopen
          (hitem fuel _ (by omega) (endsNumber_cons (by decide) _)), hrest]

/-! ### Objects -/

/-- A field before the end of an object is the last one. -/
theorem readFields_last {fuel : Nat} {text rest : Text} {value : Json} (key : Text)
    (h : readValue fuel text = (value, '\x7d' :: rest)) :
    readFields (fuel + 1) (quote key ++ ':' :: text) = ([(key, value)], rest) := by
  rw [quote_append, readFields]
  simp only [readString_quote, skipBlanks_cons (show isSeparator ':' = false by decide), h]
  rfl

/-- A field before a comma is followed by others. -/
theorem readFields_cons {fuel : Nat} {text rest : Text} {value : Json} (key : Text)
    (h : readValue fuel text = (value, ',' :: '"' :: rest)) :
    readFields (fuel + 1) (quote key ++ ':' :: text) =
      ((key, value) :: (readFields fuel ('"' :: rest)).1, (readFields fuel ('"' :: rest)).2) := by
  rw [quote_append, readFields]
  simp only [readString_quote, skipBlanks_cons (show isSeparator ':' = false by decide), h]
  rfl

/-- The fields of an object that begins with a key are read behind its brace. -/
theorem readValue_fields {fuel : Nat} {text : Text} :
    readValue (fuel + 1) ('\x7b' :: '"' :: text) =
      (.object (readFields fuel ('"' :: text)).1, (readFields fuel ('"' :: text)).2) := by
  rw [readValue, skipBlanks_cons (by decide)]
  simp [skipBlanks_cons (show isSeparator '"' = false by decide)]

/-- The written fields of an object begin with a quote. -/
theorem exists_quote_of_fields {fields : List (Text × Json)} (hne : fields ≠ []) :
    ∃ text, List.intercalate [','] (renderFields fields) = '"' :: text := by
  match fields with
  | [] => exact absurd rfl hne
  | [(key, value)] => exact ⟨_, by simp [renderFields, quote]; rfl⟩
  | (key, value) :: second :: fields => exact ⟨_, by simp [renderFields, quote]; rfl⟩

/-- **The fields of an object are read back.** -/
theorem readFields_render {fields : List (Text × Json)} (hne : fields ≠ [])
    (hfields : ∀ field ∈ fields, ReadsBack field.2) (fuel : Nat) (rest : Text)
    (hfuel : 2 * (List.intercalate [','] (renderFields fields)).length + 1 ≤ fuel) :
    readFields fuel (List.intercalate [','] (renderFields fields) ++ '\x7d' :: rest) =
      (fields, rest) := by
  induction fields generalizing fuel with
  | nil => exact absurd rfl hne
  | cons field fields ih =>
    obtain ⟨hfield, hothers⟩ := List.forall_mem_cons.mp hfields
    obtain ⟨fuel, rfl⟩ : ∃ less, fuel = less + 1 := ⟨fuel - 1, by omega⟩
    obtain ⟨key, value⟩ := field
    change ReadsBack value at hfield
    cases fields with
    | nil =>
      have hjoined : List.intercalate [','] (renderFields [(key, value)]) =
          quote key ++ ':' :: value.render := by
        simp [renderFields]
      rw [hjoined, List.length_append, List.length_cons] at hfuel
      rw [hjoined, List.append_assoc, List.cons_append]
      exact readFields_last key (hfield fuel _ (by omega) (endsNumber_cons (by decide) rest))
    | cons second fields =>
      have hjoined : List.intercalate [','] (renderFields ((key, value) :: second :: fields)) =
          quote key ++ ':' :: (value.render ++
            ',' :: List.intercalate [','] (renderFields (second :: fields))) := by
        simp [renderFields]
      obtain ⟨text, htext⟩ := exists_quote_of_fields (List.cons_ne_nil second fields)
      rw [hjoined, List.length_append, List.length_cons, List.length_append, List.length_cons]
        at hfuel
      have hrest := ih (List.cons_ne_nil _ _) hothers fuel (by omega)
      rw [htext, List.cons_append] at hrest
      rw [hjoined, htext, List.append_assoc, List.cons_append, List.append_assoc, List.cons_append,
        List.cons_append, readFields_cons key
          (hfield fuel _ (by omega) (endsNumber_cons (by decide) _)), hrest]

/-! ### Whole values -/

/-- A written value is not empty, so that it is read with some fuel. -/
theorem Written.readsBack_of_succ {json : Json} (h : Written json)
    (hread : ∀ fuel rest, 2 * json.render.length ≤ fuel + 1 → EndsNumber rest →
      readValue (fuel + 1) (json.render ++ rest) = (json, rest)) : ReadsBack json := by
  intro fuel rest hfuel hrest
  obtain ⟨c, text, htext, -⟩ := h.exists_cons
  have hlength : json.render.length = text.length + 1 := congrArg List.length htext
  obtain ⟨fuel, rfl⟩ : ∃ less, fuel = less + 1 := ⟨fuel - 1, by omega⟩
  exact hread fuel rest hfuel hrest

/-- An array of values that are read back is read back. -/
theorem readsBack_array {items : List Json} (hwritten : ∀ item ∈ items, Written item)
    (hitems : ∀ item ∈ items, ReadsBack item) : ReadsBack (.array items) := by
  refine (Written.array hwritten).readsBack_of_succ fun fuel rest hfuel _ => ?_
  by_cases hne : items = []
  · subst hne
    rfl
  · have hrender : render (.array items) ++ rest =
        '[' :: (List.intercalate [','] (renderItems items) ++ ']' :: rest) := by
      simp [render, enclose]
    have hlength : (render (.array items)).length =
        (List.intercalate [','] (renderItems items)).length + 2 := by
      simp [render, enclose]
    have hread := readItems_render hne hwritten hitems fuel rest (by omega)
    obtain ⟨c, text, htext, hblank, hopen⟩ := exists_cons_of_items hne hwritten
    rw [htext, List.cons_append] at hread
    rw [hrender, htext, List.cons_append, readValue_items hblank hopen, hread]

/-- An object of values that are read back is read back. -/
theorem readsBack_object {fields : List (Text × Json)}
    (hwritten : ∀ field ∈ fields, Written field.2) (hfields : ∀ field ∈ fields, ReadsBack field.2) :
    ReadsBack (.object fields) := by
  refine (Written.object hwritten).readsBack_of_succ fun fuel rest hfuel _ => ?_
  by_cases hne : fields = []
  · subst hne
    rfl
  · have hrender : render (.object fields) ++ rest =
        '\x7b' :: (List.intercalate [','] (renderFields fields) ++ '\x7d' :: rest) := by
      simp [render, enclose]
    have hlength : (render (.object fields)).length =
        (List.intercalate [','] (renderFields fields)).length + 2 := by
      simp [render, enclose]
    have hread := readFields_render hne hfields fuel rest (by omega)
    obtain ⟨text, htext⟩ := exists_quote_of_fields hne
    rw [htext, List.cons_append] at hread
    rw [hrender, htext, List.cons_append, readValue_fields, hread]

/-- **Every written value is read back.** -/
theorem Written.readsBack {json : Json} (h : Written json) : ReadsBack json := by
  induction h with
  | null => exact Written.null.readsBack_of_succ fun fuel rest _ _ => (readValue_word fuel rest).1
  | boolean value =>
    exact (Written.boolean value).readsBack_of_succ fun fuel rest _ _ =>
      (readValue_word fuel rest).2 value
  | number h =>
    exact (Written.number h).readsBack_of_succ fun fuel _ _ hrest => readValue_number h hrest fuel
  | string value =>
    exact (Written.string value).readsBack_of_succ fun fuel rest _ _ =>
      readValue_quote fuel value rest
  | array h ih => exact readsBack_array h ih
  | object h ih => exact readsBack_object h ih

/-- **What is decoded from the written form of a value is what is decoded from the value.** -/
theorem parse_render {α : Type} {json : Json} (h : Written json) (decode : Decoder α) :
    parse decode json.render = decode .document json := by
  have hread : read json.render = (json, []) := by
    have hback := h.readsBack (2 * json.render.length + 2) [] (by omega) endsNumber_nil
    rwa [List.append_nil] at hback
  simp only [parse, hread]
  cases decode .document json <;> rfl

end Json

end SymbolDocs
