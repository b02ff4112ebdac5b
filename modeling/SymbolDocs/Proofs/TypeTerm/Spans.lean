import Mathlib.Data.List.Forall2
import SymbolDocs.Proofs.Text.Lines
import SymbolDocs.Proofs.TypeTerm.Flatten
set_option autoImplicit false

/-!
# Flattening reaches a normal form

Flattening a full name removes the widest bracketed span of each line and turns nesting steps into
dots. What is left holds neither spans nor nesting steps, so that flattening it again changes
nothing.

## Main definitions

* `FullName.HasSpan` — an opening bracket of a line is followed by a closing one.
* `FullName.dotted` — a text with a dot for every nesting step.
* `FullName.FlattensTo` — what becomes of a line.

## Main results

* `FullName.not_hasSpan_append` — what stands around the widest span of a line holds no span.
* `FullName.flattensTo_dotted_withoutSpan` — what becomes of a line.
* `FullName.lines_flatten` — a full name is flattened line by line.
* `FullName.flatten_eq_self` — a text in normal form stays.
* `FullName.flatten_normal_form` — one pass reaches the normal form.

## Design

Brackets need not be balanced. The line `a]b[c` has no span, and of `a[b]c]d` only `ad` is left,
since a span ends with the last closing bracket of its line.
-/

namespace SymbolDocs

namespace FullName

/-! ### Spans -/

/-- An opening bracket of the line is followed later by a closing one. -/
def HasSpan (line : Text) : Prop :=
  ∃ before inner after, line = before ++ '[' :: inner ++ ']' :: after

/-- **What stands around the widest span of a line holds no span.** -/
theorem not_hasSpan_append {before after : Text} (hbefore : '[' ∉ before) (hafter : ']' ∉ after) :
    ¬ HasSpan (before ++ after) := by
  rintro ⟨front, inner, back, heq⟩
  rw [List.append_assoc] at heq
  rcases List.append_eq_append_iff.mp heq with ⟨gap, rfl, rfl⟩ | ⟨gap, rfl, hgap⟩
  · exact hafter (by simp)
  · cases gap with
    | nil =>
      rw [List.nil_append] at hgap
      exact hafter (by simp [← hgap])
    | cons c gap =>
      obtain ⟨rfl, -⟩ := List.cons.inj hgap
      exact hbefore (by simp)

/-- A span of a line that does not begin with an opening bracket is one of the rest of the line. -/
theorem HasSpan.of_cons {line : Text} {c : Char} (hc : c ≠ '[') (h : HasSpan (c :: line)) :
    HasSpan line := by
  obtain ⟨before, inner, after, heq⟩ := h
  cases before with
  | nil => exact absurd (List.cons.inj heq).1 hc
  | cons d before => exact ⟨before, inner, after, (List.cons.inj heq).2⟩

/-- Nothing follows a last closing bracket exactly where there is none. -/
theorem afterLastBracket_eq_none_iff {text : Text} : afterLastBracket text = none ↔ ']' ∉ text := by
  induction text with
  | nil => simp [afterLastBracket]
  | cons c text ih =>
    rw [afterLastBracket, List.mem_cons, not_or, ← ih]
    cases afterLastBracket text with
    | some rest => simp
    | none => simp [eq_comm]

/-- What follows the last closing bracket of a text ends the text and holds none. -/
theorem exists_of_afterLastBracket {text after : Text} (h : afterLastBracket text = some after) :
    ∃ before, text = before ++ ']' :: after ∧ ']' ∉ after := by
  induction text with
  | nil => exact nomatch h
  | cons c text ih =>
    rw [afterLastBracket] at h
    split at h
    · next rest hrest =>
      obtain rfl := Option.some.inj h
      obtain ⟨before, rfl, hafter⟩ := ih hrest
      exact ⟨c :: before, rfl, hafter⟩
    · next hnone =>
      obtain ⟨rfl, h⟩ := Option.ite_none_right_eq_some.mp h
      obtain rfl := Option.some.inj h
      exact ⟨[], rfl, afterLastBracket_eq_none_iff.mp hnone⟩

/-! ### Lines -/

/-- A text with a dot for every nesting step. -/
def dotted (text : Text) : Text :=
  text.map fun c => if c = '+' then '.' else c

/-- What becomes of a line when a full name is flattened: nesting steps become dots, and of a line
with spans only what stands before its first opening and after its last closing bracket is left. -/
inductive FlattensTo : Text → Text → Prop where
  /-- A line without spans is kept. -/
  | plain {line : Text} (no_span : ¬ HasSpan line) : FlattensTo line (dotted line)
  /-- The widest span of a line is removed. -/
  | span {before inner after : Text} (first_opening : '[' ∉ before) (last_closing : ']' ∉ after) :
      FlattensTo (before ++ '[' :: inner ++ ']' :: after) (dotted (before ++ after))

/-- A line without spans stays. -/
theorem withoutSpan_of_not_hasSpan {line : Text} (h : ¬ HasSpan line) :
    withoutSpan line = line := by
  induction line with
  | nil => rfl
  | cons c line ih =>
    rw [withoutSpan]
    split
    · next hc =>
      subst hc
      split
      · next rest hrest =>
        obtain ⟨inner, rfl, -⟩ := exists_of_afterLastBracket hrest
        exact absurd ⟨[], inner, rest, rfl⟩ h
      · rfl
    · have hline : ¬ HasSpan line := by
        rintro ⟨before, inner, after, rfl⟩
        exact h ⟨c :: before, inner, after, rfl⟩
      rw [ih hline]

/-- **The widest span of a line is removed**: what is left stood before its first opening and after
its last closing bracket. -/
theorem HasSpan.exists_widest {line : Text} (h : HasSpan line) :
    ∃ before inner after, line = before ++ '[' :: inner ++ ']' :: after ∧ '[' ∉ before ∧
      ']' ∉ after ∧ withoutSpan line = before ++ after := by
  induction line with
  | nil =>
    obtain ⟨before, inner, after, heq⟩ := h
    simp at heq
  | cons c line ih =>
    rw [withoutSpan]
    by_cases hc : c = '['
    · subst hc
      rw [if_pos rfl]
      cases hrest : afterLastBracket line with
      | some rest =>
        obtain ⟨inner, rfl, hafter⟩ := exists_of_afterLastBracket hrest
        exact ⟨[], inner, rest, rfl, List.not_mem_nil, hafter, rfl⟩
      | none =>
        -- the bracket is not closed, so that it is no span
        have hclosing : ']' ∉ '[' :: line := by
          simpa using afterLastBracket_eq_none_iff.mp hrest
        exact absurd h (not_hasSpan_append List.not_mem_nil hclosing)
    · obtain ⟨before, inner, after, rfl, hbefore, hafter, hleft⟩ := ih (h.of_cons hc)
      have hopening : '[' ∉ c :: before := by
        rw [List.mem_cons, not_or]
        exact ⟨Ne.symm hc, hbefore⟩
      rw [if_neg hc, hleft]
      exact ⟨c :: before, inner, after, rfl, hopening, hafter, rfl⟩

/-- What becomes of a line: its widest span is removed, and nesting steps become dots. -/
theorem flattensTo_dotted_withoutSpan (line : Text) :
    FlattensTo line (dotted (withoutSpan line)) := by
  by_cases h : HasSpan line
  · obtain ⟨before, inner, after, hline, hbefore, hafter, hleft⟩ := h.exists_widest
    rw [hleft, hline]
    exact .span hbefore hafter
  · rw [withoutSpan_of_not_hasSpan h]
    exact .plain h

/-- Dots in place of nesting steps make no span. -/
theorem HasSpan.of_dotted {line : Text} (h : HasSpan (dotted line)) : HasSpan line := by
  obtain ⟨before, inner, after, heq⟩ := h
  have hbracket : ∀ c bracket : Char, bracket ≠ '.' → (if c = '+' then '.' else c) = bracket →
      c = bracket := by
    intro c bracket hdot hc
    split at hc
    · exact absurd hc.symm hdot
    · exact hc
  -- each bracket of the dotted line is one of the line itself
  obtain ⟨front, last, rfl, hfront, hlast⟩ := List.map_eq_append_iff.mp heq
  obtain ⟨first, span, rfl, -, hspan⟩ := List.map_eq_append_iff.mp hfront
  obtain ⟨opening, inside, rfl, hopening, -⟩ := List.map_eq_cons_iff.mp hspan
  obtain ⟨closing, rest, rfl, hclosing, -⟩ := List.map_eq_cons_iff.mp hlast
  obtain rfl := hbracket opening '[' (by decide) hopening
  obtain rfl := hbracket closing ']' (by decide) hclosing
  exact ⟨first, inside, rest, rfl⟩

/-- What becomes of a line has no span. -/
theorem FlattensTo.not_hasSpan {line flat : Text} (h : FlattensTo line flat) : ¬ HasSpan flat := by
  cases h with
  | plain hline => exact fun hflat => hline hflat.of_dotted
  | span hbefore hafter => exact fun hflat => not_hasSpan_append hbefore hafter hflat.of_dotted

/-! ### Full names -/

/-- No line feed stands in what is left of a line. -/
theorem lineFeed_not_mem_withoutSpan {line : Text} (h : '\n' ∉ line) : '\n' ∉ withoutSpan line := by
  by_cases hspan : HasSpan line
  · obtain ⟨before, inner, after, rfl, -, -, hleft⟩ := hspan.exists_widest
    rw [hleft]
    simp only [List.mem_append, List.mem_cons, not_or] at h ⊢
    exact ⟨h.1.1, h.2.2⟩
  · rwa [withoutSpan_of_not_hasSpan hspan]

/-- **A full name is flattened line by line.** -/
theorem lines_flatten (fullName : Text) :
    Text.lines (flatten fullName) =
      (Text.lines fullName).map fun line => dotted (withoutSpan line) := by
  have hne : (Text.lines fullName).map withoutSpan ≠ [] := by simp [Text.lines_ne_nil]
  have hlines : ∀ line ∈ (Text.lines fullName).map withoutSpan, '\n' ∉ line := by
    rintro _ hmem
    obtain ⟨line, hline, rfl⟩ := List.mem_map.mp hmem
    exact lineFeed_not_mem_withoutSpan (Text.lineFeed_not_mem_of_mem_lines hline)
  have hfeed : ∀ c : Char, (if c = '+' then '.' else c) = '\n' ↔ c = '\n' := by
    intro c
    split
    · next hc => simp [hc]
    · rfl
  rw [flatten, withoutArguments, Text.lines_map hfeed, Text.lines_unlines hne hlines, List.map_map]
  rfl

/-- No nesting step is left. -/
theorem plus_not_mem_dotted (text : Text) : '+' ∉ dotted text := by
  intro hmem
  obtain ⟨c, -, hc⟩ := List.mem_map.mp hmem
  split at hc
  · exact absurd hc (by decide)
  · next hplus => exact hplus hc

/-- **A text in normal form stays**: one without nesting steps and without spans. -/
theorem flatten_eq_self {text : Text} (hplus : '+' ∉ text)
    (hspan : ∀ line ∈ Text.lines text, ¬ HasSpan line) : flatten text = text := by
  have hlines : (Text.lines text).map withoutSpan = Text.lines text :=
    (List.map_congr_left fun line hline => withoutSpan_of_not_hasSpan (hspan line hline)).trans
      (List.map_id' _)
  rw [flatten, withoutArguments, hlines, Text.unlines_lines, TypeTerm.map_dot_eq_self hplus]

/-- **Flattening reaches a normal form in one pass.** What is left of any text holds no nesting
steps, and no span on any of its lines. Its lines are those of the text one by one: a line without
spans is kept but for nesting steps, which become dots, and of any other line what stands before its
first opening and after its last closing bracket is kept likewise. Flattening again changes nothing.

**Proof sketch.** What is left of a line with spans is a text without opening brackets followed by
one without closing brackets, in which no bracket can be closed. -/
theorem flatten_normal_form (fullName : Text) :
    '+' ∉ flatten fullName ∧
      (∀ line ∈ Text.lines (flatten fullName), ¬ HasSpan line) ∧
      List.Forall₂ FlattensTo (Text.lines fullName) (Text.lines (flatten fullName)) ∧
      flatten (flatten fullName) = flatten fullName := by
  have hplus : '+' ∉ flatten fullName := plus_not_mem_dotted (withoutArguments fullName)
  have hspan : ∀ line ∈ Text.lines (flatten fullName), ¬ HasSpan line := by
    intro line hline
    rw [lines_flatten] at hline
    obtain ⟨before, -, rfl⟩ := List.mem_map.mp hline
    exact (flattensTo_dotted_withoutSpan before).not_hasSpan
  refine ⟨hplus, hspan, ?_, flatten_eq_self hplus hspan⟩
  rw [lines_flatten, List.forall₂_map_right_iff, List.forall₂_same]
  exact fun line _ => flattensTo_dotted_withoutSpan line

example : flatten "a]+b[[c]+d\ne[f]g]h".toList = "a].b.d\neh".toList := rfl

end FullName

end SymbolDocs
