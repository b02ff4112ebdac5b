import SymbolDocs.Markup.Entity
set_option autoImplicit false

/-!
# Entities in one pass

The entities are decoded one after the other, each over the whole text. A single pass that looks for
all of them at once comes to the same, since no entity arises where another has been decoded.

## Main definitions

* `Markup.decodeOnce` — the text with the entities of a table replaced in one pass.
* `Markup.IsEntityTable` — tables in which no entity begins with another.
* `Markup.encodeEntities` — the text with the characters of markup written as entities.
* `Markup.StandsFor` — the five entities with their characters.
* `Markup.PassesTo` — what a single pass over a text writes, step by step.

## Main results

* `Text.replaceAll_append`, `Text.replaceAll_cons` — a replacement proceeds from left to right.
* `Markup.replaceAll_decodeOnce` — one more replacement adds its entity to the table.
* `Markup.decodeEntities_eq_decodeOnce` — the entities are decoded in one pass.
* `Markup.decodeEntities_encodeEntities` — every text can be written with entities.
* `Markup.decodeEntities_single_pass` — what is decoded is what a single pass writes.
-/

namespace SymbolDocs

/-! ### Replacement from left to right -/

namespace Text

/-- Characters that are dropped before a replacement are no part of it. -/
theorem replaceFrom_eq (pattern replacement : Text) (skipped : Nat) (text : Text) :
    replaceFrom pattern replacement skipped text =
      replaceAll pattern replacement (text.drop skipped) := by
  induction text generalizing skipped with
  | nil => simp [replaceAll, replaceFrom]
  | cons c text ih =>
    cases skipped with
    | zero => rfl
    | succ skipped => rw [replaceFrom, ih, List.drop_succ_cons]

/-- A pattern that a text begins with is replaced, and the rest after it. -/
theorem replaceAll_append {pattern : Text} (h : pattern ≠ []) (replacement rest : Text) :
    replaceAll pattern replacement (pattern ++ rest) =
      replacement ++ replaceAll pattern replacement rest := by
  obtain ⟨p, pattern, rfl⟩ := List.exists_cons_of_ne_nil h
  have hskip : skip? (p :: pattern) (p :: (pattern ++ rest)) = some rest :=
    skip?_eq_some_iff.mpr rfl
  rw [List.cons_append, replaceAll, replaceFrom, hskip]
  simp [replaceFrom_eq]

/-- A character that no occurrence of the pattern begins with stays. -/
theorem replaceAll_cons {pattern text : Text} {c : Char} (h : ¬ pattern <+: c :: text)
    (replacement : Text) :
    replaceAll pattern replacement (c :: text) =
      c :: replaceAll pattern replacement text := by
  have hskip : skip? pattern (c :: text) = none := by
    cases hrest : skip? pattern (c :: text) with
    | none => rfl
    | some rest => exact absurd ⟨rest, (skip?_eq_some_iff.mp hrest).symm⟩ h
  rw [replaceAll, replaceFrom, hskip, replaceAll]

end Text

namespace Markup

/-! ### One pass -/

/-- The entity of a table that a text begins with. -/
def entityAt? (table : List (Text × Char)) (text : Text) : Option (Text × Char) :=
  table.find? fun entity => entity.1.isPrefixOf text

/-- Replacement of the entities of a table after the first `skipped` characters, which are
dropped. -/
def decodeFrom (table : List (Text × Char)) : Nat → Text → Text
  | _, [] => []
  | skipped + 1, _ :: text => decodeFrom table skipped text
  | 0, c :: text =>
    match entityAt? table (c :: text) with
    | some entity => entity.2 :: decodeFrom table (entity.1.length - 1) text
    | none => c :: decodeFrom table 0 text

/-- The text with the entities of a table replaced by their characters, from left to right in one
pass. What has been written is not looked at again. -/
def decodeOnce (table : List (Text × Char)) (text : Text) : Text :=
  decodeFrom table 0 text

/-- A table of entities: each is an ampersand and other characters, and none begins with another. -/
structure IsEntityTable (table : List (Text × Char)) : Prop where
  /-- An entity begins with an ampersand and has no other. -/
  lead : ∀ entity ∈ table, ∃ body, entity.1 = '&' :: body ∧ '&' ∉ body
  /-- No entity begins with another. -/
  prefix_free : ∀ entity ∈ table, ∀ other ∈ table, entity.1 <+: other.1 → entity = other

/-- A table with fewer entities is one. -/
theorem IsEntityTable.of_subset {table larger : List (Text × Char)} (h : IsEntityTable larger)
    (hsubset : table ⊆ larger) : IsEntityTable table where
  lead entity hentity := h.lead entity (hsubset hentity)
  prefix_free entity hentity other hother :=
    h.prefix_free entity (hsubset hentity) other (hsubset hother)

/-- Characters that are dropped before a pass are no part of it. -/
theorem decodeFrom_eq (table : List (Text × Char)) (skipped : Nat) (text : Text) :
    decodeFrom table skipped text = decodeOnce table (text.drop skipped) := by
  induction text generalizing skipped with
  | nil => simp [decodeOnce, decodeFrom]
  | cons c text ih =>
    cases skipped with
    | zero => rfl
    | succ skipped => rw [decodeFrom, ih, List.drop_succ_cons]

/-- An entity that a text begins with is decoded, and the rest after it. -/
theorem decodeOnce_append {table : List (Text × Char)} (h : IsEntityTable table)
    {entity : Text × Char} (hentity : entity ∈ table) (rest : Text) :
    decodeOnce table (entity.1 ++ rest) = entity.2 :: decodeOnce table rest := by
  have hfound : entityAt? table (entity.1 ++ rest) = some entity := by
    cases hfind : entityAt? table (entity.1 ++ rest) with
    | none =>
      have hnone := List.find?_eq_none.mp hfind entity hentity
      simp at hnone
    | some other =>
      have hother : other ∈ table := List.mem_of_find?_eq_some hfind
      have hbegins : other.1 <+: entity.1 ++ rest := by
        simpa using List.find?_some hfind
      -- two entities that the same text begins with are the same
      rcases List.prefix_or_prefix_of_prefix hbegins (List.prefix_append entity.1 rest) with h' | h'
      · rw [h.prefix_free other hother entity hentity h']
      · rw [h.prefix_free entity hentity other hother h']
  obtain ⟨body, hbody, -⟩ := h.lead entity hentity
  have hlength : entity.1.length - 1 = body.length := by simp [hbody]
  rw [hbody, List.cons_append] at hfound ⊢
  rw [decodeOnce, decodeFrom, hfound]
  simp only [decodeFrom_eq, hlength, List.drop_left]

/-- A character that no entity begins with stays. -/
theorem decodeOnce_cons {table : List (Text × Char)} {c : Char} {text : Text}
    (h : ∀ entity ∈ table, ¬ entity.1 <+: c :: text) :
    decodeOnce table (c :: text) = c :: decodeOnce table text := by
  have hnone : entityAt? table (c :: text) = none :=
    List.find?_eq_none.mpr fun entity hentity => by simpa using h entity hentity
  rw [decodeOnce, decodeFrom, hnone, decodeOnce]

/-- A character other than the ampersand stays. -/
theorem decodeOnce_cons_of_ne {table : List (Text × Char)} (h : IsEntityTable table) {c : Char}
    (hc : c ≠ '&') (text : Text) :
    decodeOnce table (c :: text) = c :: decodeOnce table text := by
  refine decodeOnce_cons fun entity hentity hbegins => ?_
  obtain ⟨body, hbody, -⟩ := h.lead entity hentity
  rw [hbody, List.cons_prefix_cons] at hbegins
  exact hc hbegins.1.symm

/-- A text without ampersands stays. -/
theorem decodeOnce_append_of_not_mem {table : List (Text × Char)} (h : IsEntityTable table)
    {run : Text} (hrun : '&' ∉ run) (rest : Text) :
    decodeOnce table (run ++ rest) = run ++ decodeOnce table rest := by
  induction run with
  | nil => rfl
  | cons c run ih =>
    obtain ⟨hc, hrun⟩ := not_or.mp (mt List.mem_cons.mpr hrun)
    rw [List.cons_append, decodeOnce_cons_of_ne h (Ne.symm hc), ih hrun, List.cons_append]

/-! ### One replacement after the other -/

/-- What a pass over a text begins with, the text begins with, when no character of it has been
decoded. -/
theorem prefix_of_prefix_decodeOnce {table : List (Text × Char)} (h : IsEntityTable table)
    {run text : Text} (hrun : ∀ entity ∈ table, entity.2 ∉ run)
    (hbegins : run <+: decodeOnce table text) : run <+: text := by
  induction run generalizing text with
  | nil => exact List.nil_prefix
  | cons r run ih =>
    cases text with
    | nil => exact hbegins
    | cons c text =>
      by_cases hentity : ∃ entity ∈ table, entity.1 <+: c :: text
      · obtain ⟨entity, hentity, rest, hrest⟩ := hentity
        rw [← hrest, decodeOnce_append h hentity, List.cons_prefix_cons] at hbegins
        exact absurd (hbegins.1 ▸ List.mem_cons_self) (hrun entity hentity)
      · have hnone : ∀ entity ∈ table, ¬ entity.1 <+: c :: text :=
          fun entity hmem h' => hentity ⟨entity, hmem, h'⟩
        rw [decodeOnce_cons hnone, List.cons_prefix_cons] at hbegins
        refine List.cons_prefix_cons.mpr ⟨hbegins.1, ih (fun entity hmem hin => ?_) hbegins.2⟩
        exact hrun entity hmem (List.mem_cons_of_mem r hin)

/-- **One more replacement adds its entity to the table of a pass**, when none of its characters
can have been decoded.

**Proof sketch.** By induction on the length of the text, by what it begins with: an entity of the
table, whose character does not begin the new one; the new entity, which the pass leaves as it is;
or neither, where the pass lets no new entity arise. -/
theorem replaceAll_decodeOnce {table : List (Text × Char)} {entity : Text × Char}
    (h : IsEntityTable (table ++ [entity])) (hfresh : ∀ other ∈ table, other.2 ∉ entity.1)
    (text : Text) :
    Text.replaceAll entity.1 [entity.2] (decodeOnce table text) =
      decodeOnce (table ++ [entity]) text := by
  have hsubset : table ⊆ table ++ [entity] := List.subset_append_left table [entity]
  have htable : IsEntityTable table := h.of_subset hsubset
  have hlast : entity ∈ table ++ [entity] := by simp
  obtain ⟨body, hbody, hbare⟩ := h.lead entity hlast
  induction hlength : text.length using Nat.strongRecOn generalizing text with
  | ind length ih =>
    by_cases hold : ∃ other ∈ table, other.1 <+: text
    · obtain ⟨other, hother, rest, rfl⟩ := hold
      have hne : ¬ entity.1 <+: other.2 :: decodeOnce table rest := by
        rw [hbody, List.cons_prefix_cons]
        exact fun hbegins => hfresh other hother (by simp [hbody, ← hbegins.1])
      obtain ⟨front, hfront, -⟩ := htable.lead other hother
      have hshorter : rest.length < length := by
        rw [← hlength, List.length_append, hfront, List.length_cons]
        omega
      rw [decodeOnce_append htable hother, Text.replaceAll_cons hne, ih _ hshorter rest rfl,
        decodeOnce_append h (hsubset hother)]
    · have hnone : ∀ other ∈ table, ¬ other.1 <+: text :=
        fun other hmem hbegins => hold ⟨other, hmem, hbegins⟩
      by_cases hnew : entity.1 <+: text
      · obtain ⟨rest, rfl⟩ := hnew
        have hkept : decodeOnce table (entity.1 ++ rest) = entity.1 ++ decodeOnce table rest := by
          rw [hbody, List.cons_append] at hnone ⊢
          rw [decodeOnce_cons hnone, decodeOnce_append_of_not_mem htable hbare, List.cons_append]
        have hshorter : rest.length < length := by
          rw [← hlength, List.length_append, hbody, List.length_cons]
          omega
        have hne : entity.1 ≠ [] := by simp [hbody]
        rw [hkept, Text.replaceAll_append hne, ih _ hshorter rest rfl, decodeOnce_append h hlast]
        rfl
      · cases text with
        | nil => rfl
        | cons c text =>
          have hkept := decodeOnce_cons hnone
          have harises : ¬ entity.1 <+: c :: decodeOnce table text := by
            rw [← hkept]
            exact mt (prefix_of_prefix_decodeOnce htable hfresh) hnew
          have hneither : ∀ other ∈ table ++ [entity], ¬ other.1 <+: c :: text := by
            intro other hother
            rcases List.mem_append.mp hother with hother | hother
            · exact hnone other hother
            · rwa [List.mem_singleton.mp hother]
          have hshorter : text.length < length := by
            rw [← hlength, List.length_cons]
            omega
          rw [hkept, Text.replaceAll_cons harises, ih _ hshorter text rfl,
            decodeOnce_cons hneither]

/-- Replacements one after the other add their entities to the table of a pass. -/
theorem foldl_replaceAll_decodeOnce {later earlier : List (Text × Char)}
    (h : IsEntityTable (earlier ++ later))
    (hfresh : (earlier ++ later).Pairwise fun other entity => other.2 ∉ entity.1) (text : Text) :
    later.foldl (fun text entity => Text.replaceAll entity.1 [entity.2] text)
        (decodeOnce earlier text) = decodeOnce (earlier ++ later) text := by
  induction later generalizing earlier with
  | nil => rw [List.foldl_nil, List.append_nil]
  | cons entity later ih =>
    rw [List.append_cons] at h hfresh ⊢
    have hearlier : IsEntityTable (earlier ++ [entity]) :=
      h.of_subset (List.subset_append_left _ later)
    have hother : ∀ other ∈ earlier, other.2 ∉ entity.1 := fun other hother =>
      (List.pairwise_append.mp (List.pairwise_append.mp hfresh).1).2.2 other hother entity
        List.mem_cons_self
    rw [List.foldl_cons, replaceAll_decodeOnce hearlier hother, ih h hfresh]

/-- The entities of attribute values. -/
def entityTable : List (Text × Char) :=
  entities.map fun entity => (entity.1.toList, entity.2)

/-- The entities of attribute values are a table. -/
theorem isEntityTable_entityTable : IsEntityTable entityTable where
  lead entity hentity := by
    have hlead : ∀ entity ∈ entityTable, entity.1 = '&' :: entity.1.tail ∧ '&' ∉ entity.1.tail := by
      decide
    exact ⟨entity.1.tail, hlead entity hentity⟩
  prefix_free := by decide

/-- **The entities are decoded in one pass.** -/
theorem decodeEntities_eq_decodeOnce (text : Text) :
    decodeEntities text = decodeOnce entityTable text := by
  have hnone : ∀ text : Text, decodeOnce [] text = text := by
    intro text
    induction text with
    | nil => rfl
    | cons c text ih => rw [decodeOnce_cons (by simp), ih]
  have hpasses := @foldl_replaceAll_decodeOnce entityTable [] isEntityTable_entityTable
    (by decide) text
  rw [hnone] at hpasses
  exact (List.foldl_map ..).symm.trans hpasses

/-! ### Encoding -/

/-- A character as it is written in a value: as an entity when markup uses it itself. -/
def encodeCharacter : Char → Text
  | '&' => "&amp;".toList
  | '<' => "&lt;".toList
  | '>' => "&gt;".toList
  | '"' => "&quot;".toList
  | '\x27' => "&apos;".toList
  | c => [c]

/-- The text with the characters that markup uses written as entities. -/
def encodeEntities (text : Text) : Text :=
  text.flatMap encodeCharacter

/-- A character is written as its entity, or as itself when it is none of markup. -/
theorem encodeCharacter_cases (c : Char) :
    (encodeCharacter c, c) ∈ entityTable ∨
      encodeCharacter c = [c] ∧ c ∉ ['&', '<', '>', '"', '\x27'] := by
  by_cases h : c ∈ ['&', '<', '>', '"', '\x27']
  · left
    simp only [List.mem_cons, List.not_mem_nil, or_false] at h
    rcases h with rfl | rfl | rfl | rfl | rfl <;> decide
  · right
    refine ⟨?_, h⟩
    simp only [List.mem_cons, List.not_mem_nil, or_false, not_or] at h
    unfold encodeCharacter
    split <;> simp_all

/-- **Every text can be written with entities**: decoding gives it back. -/
theorem decodeEntities_encodeEntities (text : Text) :
    decodeEntities (encodeEntities text) = text := by
  rw [decodeEntities_eq_decodeOnce]
  induction text with
  | nil => rfl
  | cons c text ih =>
    rw [encodeEntities, List.flatMap_cons]
    rcases encodeCharacter_cases c with hentity | ⟨hself, hplain⟩
    · rw [decodeOnce_append isEntityTable_entityTable hentity]
      exact congrArg (List.cons c) ih
    · have hc : c ≠ '&' := fun heq => hplain (by simp [heq])
      rw [hself, List.singleton_append, decodeOnce_cons_of_ne isEntityTable_entityTable hc]
      exact congrArg (List.cons c) ih

/-- An encoded text holds no angle bracket and no quote. -/
theorem not_mem_encodeEntities {c : Char} (h : c ∈ ['<', '>', '"', '\x27']) (text : Text) :
    c ∉ encodeEntities text := by
  intro hmem
  obtain ⟨d, -, hd⟩ := List.mem_flatMap.mp hmem
  rcases encodeCharacter_cases d with hentity | ⟨hself, hplain⟩
  · have hfree : ∀ entity ∈ entityTable, c ∉ entity.1 := by
      simp only [List.mem_cons, List.not_mem_nil, or_false] at h
      rcases h with rfl | rfl | rfl | rfl <;> decide
    exact hfree _ hentity hd
  · rw [hself, List.mem_singleton] at hd
    exact hplain (List.mem_cons_of_mem '&' (hd ▸ h))

/-! ### The steps of a pass -/

/-- An entity stands for a character. -/
inductive StandsFor : Text → Char → Prop
  /-- The opening angle bracket. -/
  | less : StandsFor "&lt;".toList '<'
  /-- The closing angle bracket. -/
  | greater : StandsFor "&gt;".toList '>'
  /-- The double quote. -/
  | quote : StandsFor "&quot;".toList '"'
  /-- The single quote. -/
  | apostrophe : StandsFor "&apos;".toList '\x27'
  /-- The ampersand. -/
  | ampersand : StandsFor "&amp;".toList '&'

/-- What a single pass over a text from left to right writes. The pass goes on behind what it has
read, and never over what it has written. -/
inductive PassesTo : Text → Text → Prop
  /-- Nothing is left to be read. -/
  | finished : PassesTo [] []
  /-- An entity is read as a whole, and its character is written. -/
  | decoded {entity rest written : Text} {c : Char} (h : StandsFor entity c)
      (hrest : PassesTo rest written) : PassesTo (entity ++ rest) (c :: written)
  /-- A character that no entity begins with is copied, an ampersand as any other. -/
  | copied {c : Char} {rest written : Text}
      (h : ∀ entity d, StandsFor entity d → ¬ entity <+: c :: rest)
      (hrest : PassesTo rest written) : PassesTo (c :: rest) (c :: written)

/-- The table of entities holds the five entities and no other. -/
theorem mem_entityTable_iff {entity : Text} {c : Char} :
    (entity, c) ∈ entityTable ↔ StandsFor entity c := by
  constructor
  · intro h
    simp only [entityTable, entities, List.map_cons, List.map_nil, List.mem_cons,
      List.not_mem_nil, or_false, Prod.mk.injEq] at h
    obtain ⟨rfl, rfl⟩ | ⟨rfl, rfl⟩ | ⟨rfl, rfl⟩ | ⟨rfl, rfl⟩ | ⟨rfl, rfl⟩ := h
    · exact .less
    · exact .greater
    · exact .quote
    · exact .apostrophe
    · exact .ampersand
  · intro h
    cases h <;> decide

/-- A pass can be made over every text. -/
theorem passesTo_decodeOnce (text : Text) : PassesTo text (decodeOnce entityTable text) := by
  induction hlength : text.length using Nat.strongRecOn generalizing text with
  | ind length ih =>
    by_cases hentity : ∃ entity ∈ entityTable, entity.1 <+: text
    · obtain ⟨entity, hentity, rest, rfl⟩ := hentity
      obtain ⟨body, hbody, -⟩ := isEntityTable_entityTable.lead entity hentity
      have hshorter : rest.length < length := by
        rw [← hlength, List.length_append, hbody, List.length_cons]
        omega
      rw [decodeOnce_append isEntityTable_entityTable hentity]
      exact .decoded (mem_entityTable_iff.mp hentity) (ih _ hshorter rest rfl)
    · cases text with
      | nil => exact .finished
      | cons c text =>
        have hshorter : text.length < length := by
          rw [← hlength, List.length_cons]
          omega
        rw [decodeOnce_cons fun entity hmem hbegins => hentity ⟨entity, hmem, hbegins⟩]
        refine .copied (fun entity d hstands hbegins => hentity ?_) (ih _ hshorter text rfl)
        exact ⟨(entity, d), mem_entityTable_iff.mpr hstands, hbegins⟩

/-- A pass over a text writes only one text. -/
theorem PassesTo.eq_decodeOnce {text written : Text} (h : PassesTo text written) :
    decodeOnce entityTable text = written := by
  induction h with
  | finished => rfl
  | decoded hstands _ ih =>
    rw [decodeOnce_append isEntityTable_entityTable (mem_entityTable_iff.mpr hstands), ih]
  | copied hnone _ ih =>
    rw [decodeOnce_cons fun entity hentity => hnone _ _ (mem_entityTable_iff.mp hentity), ih]

/-- **Decoding the entities one after the other is a single pass over the text.** What is decoded is
what the pass writes, for every text; and a text whose markup characters have been written as
entities is decoded to itself, even where it holds entities of its own. -/
theorem decodeEntities_single_pass :
    (∀ text written : Text, decodeEntities text = written ↔ PassesTo text written) ∧
      ∀ text : Text, decodeEntities (encodeEntities text) = text := by
  refine ⟨fun text written => ?_, decodeEntities_encodeEntities⟩
  rw [decodeEntities_eq_decodeOnce]
  constructor
  · rintro rfl
    exact passesTo_decodeOnce text
  · exact PassesTo.eq_decodeOnce

/-- What has been decoded is not decoded again, and what is no entity stays. -/
example : decodeEntities "&amp;lt; &amp;amp; & &lt &nbsp;".toList =
    "&lt; &amp; & &lt &nbsp;".toList := by
  decide

end Markup

end SymbolDocs
