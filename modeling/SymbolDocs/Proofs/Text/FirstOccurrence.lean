import SymbolDocs.Text.Basic
set_option autoImplicit false

/-!
# First occurrences

Where a text is cut at a pattern is a property of the text before the cut alone: it ends with the
pattern, and no shorter beginning of it does.

## Main definitions

* `Text.EndsFirst` — a text ends with the first occurrence of a pattern in it.

## Main results

* `Text.EndsFirst.unique` — a text begins in one way with a text that ends so.
* `Text.endsFirst_append` — a pattern behind a text without it is its first occurrence.
* `Text.cutAt_eq_some_iff` — a text is cut where its first occurrence of the pattern ends.
* `Text.exists_cutAt` — no occurrence comes before the cut.
* `Text.prefix_append_iff` — a lead without some character begins a text when it begins any part of
  the text that holds the character.
-/

namespace SymbolDocs

namespace Text

/-! ### Texts that end with a first occurrence -/

/-- A text ends with the first occurrence of a pattern in it. -/
def EndsFirst (pattern text : Text) : Prop :=
  pattern <:+ text ∧ ∀ start, start <+: text → pattern <:+ start → start = text

/-- A pattern itself ends with its first occurrence. -/
theorem endsFirst_self (pattern : Text) : EndsFirst pattern pattern := by
  refine ⟨List.suffix_refl pattern, fun start hstart hpattern => ?_⟩
  exact hstart.eq_of_length_le hpattern.length_le

/-- **Only one beginning of a text ends with the first occurrence of a pattern.** -/
theorem EndsFirst.unique {pattern text first second : Text} (h₁ : EndsFirst pattern first)
    (h₂ : EndsFirst pattern second) (hfirst : first <+: text) (hsecond : second <+: text) :
    first = second := by
  rcases List.prefix_or_prefix_of_prefix hfirst hsecond with h | h
  · exact h₂.2 first h h₁.1
  · exact (h₁.2 second h h₂.1).symm

/-- A character that no occurrence begins with may stand in front of a text that ends with the first
occurrence. -/
theorem EndsFirst.cons {pattern text : Text} {c : Char} (h : EndsFirst pattern text)
    (hc : ¬ pattern <+: c :: text) : EndsFirst pattern (c :: text) := by
  refine ⟨h.1.trans (List.suffix_cons c text), fun start hstart hpattern => ?_⟩
  rcases List.prefix_cons_iff.mp hstart with rfl | ⟨tail, rfl, htail⟩
  · obtain rfl := List.suffix_nil.mp hpattern
    exact absurd List.nil_prefix hc
  · rcases List.suffix_cons_iff.mp hpattern with rfl | hpattern
    · exact absurd hstart hc
    · rw [h.2 tail htail hpattern]

/-- **A pattern behind a text in which it does not occur is its first occurrence**, where the last
character of the pattern stands nowhere else in it.

**Proof sketch.** An occurrence that ends earlier lies in the text, or ends with a character of the
pattern that is not its last one. -/
theorem endsFirst_append {front lead : Text} {last : Char} (hlast : last ∉ lead)
    (h : ¬ lead ++ [last] <:+: front) : EndsFirst (lead ++ [last]) (front ++ (lead ++ [last])) := by
  refine ⟨List.suffix_append front _, fun start hstart hpattern => ?_⟩
  rw [← List.append_assoc] at hstart ⊢
  rcases List.prefix_concat_iff.mp hstart with hwhole | hearly
  · exact hwhole
  · exfalso
    rcases List.prefix_or_prefix_of_prefix hearly (List.prefix_append front lead) with
      hin | ⟨part, rfl⟩
    · exact h (hpattern.isInfix.trans hin.isInfix)
    · have hpart : part <+: lead := (List.prefix_append_right_inj front).mp hearly
      rcases List.eq_nil_or_concat part with rfl | ⟨inner, c, rfl⟩
      · exact h (by simpa using hpattern.isInfix)
      · obtain ⟨before, hend⟩ := hpattern
        rw [List.concat_eq_append] at hend hpart
        rw [← List.append_assoc, ← List.append_assoc] at hend
        obtain ⟨-, hc⟩ := List.append_inj' hend rfl
        rw [← hc] at hpart
        exact hlast (hpart.subset (by simp))

/-! ### Cutting -/

/-- A text in which a pattern occurs can be cut. -/
theorem cutAt_ne_none (pattern before after : Text) :
    cutAt pattern (before ++ pattern ++ after) ≠ none := by
  have hself : ∀ text : Text, skip? pattern text = none → ¬ pattern <+: text := by
    intro text hnone hprefix
    obtain ⟨rest, heq⟩ := hprefix
    rw [skip?_eq_some_iff.mpr heq.symm] at hnone
    exact absurd hnone (by simp)
  induction before with
  | nil =>
    rw [List.nil_append]
    cases htext : pattern ++ after with
    | nil =>
      obtain ⟨rfl, rfl⟩ := List.append_eq_nil_iff.mp htext
      simp [cutAt, skip?]
    | cons c text =>
      rw [cutAt]
      split
      · simp
      · next hnone => exact absurd ⟨after, htext⟩ (hself _ hnone)
  | cons c before ih =>
    rw [List.cons_append, List.cons_append, cutAt]
    split
    · simp
    · simpa using ih

/-- What stands before a cut, with the pattern, ends with the first occurrence. -/
theorem endsFirst_of_cutAt {pattern text before after : Text}
    (h : cutAt pattern text = some (before, after)) : EndsFirst pattern (before ++ pattern) := by
  induction text generalizing before after with
  | nil =>
    obtain ⟨rest, -, heq⟩ := Option.map_eq_some_iff.mp h
    obtain ⟨rfl, -⟩ := Prod.mk.inj heq
    exact endsFirst_self pattern
  | cons c text ih =>
    rw [cutAt] at h
    split at h
    · obtain ⟨rfl, -⟩ := Prod.mk.inj (Option.some.inj h)
      exact endsFirst_self pattern
    · next hnone =>
      obtain ⟨⟨front, rest⟩, hcut, heq⟩ := Option.map_eq_some_iff.mp h
      obtain ⟨rfl, -⟩ := Prod.mk.inj heq
      refine (ih hcut).cons fun hprefix => ?_
      -- the pattern would begin the text itself
      have htext : c :: (front ++ pattern) <+: c :: text :=
        (List.cons_prefix_cons.mpr ⟨rfl, ⟨rest, (append_of_cutAt hcut).symm⟩⟩)
      obtain ⟨after, heq⟩ := hprefix.trans htext
      rw [skip?_eq_some_iff.mpr heq.symm] at hnone
      exact absurd hnone (by simp)

/-- **A text is cut where its first occurrence of the pattern ends.** -/
theorem cutAt_eq_some_iff {pattern text before after : Text} :
    cutAt pattern text = some (before, after) ↔
      text = before ++ pattern ++ after ∧ EndsFirst pattern (before ++ pattern) := by
  refine ⟨fun h => ⟨append_of_cutAt h, endsFirst_of_cutAt h⟩, fun ⟨htext, hends⟩ => ?_⟩
  subst htext
  obtain ⟨⟨front, rest⟩, hcut⟩ := Option.ne_none_iff_exists'.mp (cutAt_ne_none pattern before after)
  have hwhole := append_of_cutAt hcut
  have hfront : front ++ pattern = before ++ pattern :=
    (endsFirst_of_cutAt hcut).unique hends ⟨rest, hwhole.symm⟩ ⟨after, rfl⟩
  rw [hfront] at hwhole
  rw [hcut, List.append_cancel_right hfront, List.append_cancel_left hwhole]

/-- **A text is cut no later than at any occurrence of the pattern**: what follows an occurrence
ends what follows the cut. -/
theorem exists_cutAt (pattern before after : Text) :
    ∃ front rest, cutAt pattern (before ++ pattern ++ after) = some (front, rest) ∧
      after <:+ rest := by
  obtain ⟨⟨front, rest⟩, hcut⟩ := Option.ne_none_iff_exists'.mp (cutAt_ne_none pattern before after)
  have hwhole := append_of_cutAt hcut
  have hearly : front ++ pattern <+: before ++ pattern := by
    rcases List.prefix_or_prefix_of_prefix ⟨rest, hwhole.symm⟩ ⟨after, rfl⟩ with h | h
    · exact h
    · exact (endsFirst_of_cutAt hcut).2 _ h (List.suffix_append before pattern) ▸
        List.prefix_refl _
  obtain ⟨gap, hgap⟩ := hearly
  rw [← hgap, List.append_assoc, List.append_right_inj] at hwhole
  exact ⟨front, rest, hcut, ⟨gap, hwhole⟩⟩

/-! ### Leads -/

/-- A lead without some character begins a text when it begins a part of it that holds the
character. -/
theorem prefix_append_iff {lead source rest : Text} {c : Char} (hlead : c ∉ lead)
    (hsource : c ∈ source) : lead <+: source ++ rest ↔ lead <+: source := by
  refine ⟨fun h => ?_, fun h => h.trans (List.prefix_append source rest)⟩
  rcases List.prefix_or_prefix_of_prefix h (List.prefix_append source rest) with h | h
  · exact h
  · exact absurd (h.subset hsource) hlead

end Text

end SymbolDocs
