set_option autoImplicit false

/-!
# Texts

A text is the list of its characters. Names, identifiers, documentation and source files are all
texts, so that every rule of the library is recursion on a list.

## Main definitions

* `Text.skip?` — what follows a given lead.
* `Text.cutAt` — the text before and after the first occurrence of a pattern.
* `Text.replaceAll` — replacement of every occurrence of a pattern, from left to right.
* `Text.lines`, `Text.unlines` — the lines of a text, and the text of some lines.

## Main results

* `Text.skip?_eq_some_iff` — a lead is skipped exactly where the text begins with it.
* `Text.append_of_cutAt` — cutting loses nothing.
* `Text.unlines_lines` — joining the lines of a text gives it back.
-/

namespace SymbolDocs

/-- A text is the list of its characters. -/
abbrev Text := List Char

namespace Text

/-! ### Leads and first occurrences -/

/-- What follows `lead` in a text that begins with it. -/
def skip? : Text → Text → Option Text
  | [], text => some text
  | _ :: _, [] => none
  | l :: lead, c :: text => if l = c then skip? lead text else none

/-- The text before the first occurrence of `pattern`, and the text after it. -/
def cutAt (pattern : Text) : Text → Option (Text × Text)
  | [] => (skip? pattern []).map fun after => ([], after)
  | c :: text =>
    match skip? pattern (c :: text) with
    | some after => some ([], after)
    | none => (cutAt pattern text).map fun cut => (c :: cut.1, cut.2)

/-- A lead is skipped exactly where the text begins with it. -/
theorem skip?_eq_some_iff {lead text after : Text} :
    skip? lead text = some after ↔ text = lead ++ after := by
  induction lead generalizing text with
  | nil => simp [skip?, eq_comm]
  | cons l lead ih =>
    cases text with
    | nil => simp [skip?]
    | cons c text =>
      by_cases h : l = c
      · subst h; simp [skip?, ih]
      · simp [skip?, h, Ne.symm h]

/-- **Cutting loses nothing**: the parts and the pattern between them are the whole text. -/
theorem append_of_cutAt {pattern text before after : Text}
    (h : cutAt pattern text = some (before, after)) : text = before ++ pattern ++ after := by
  induction text generalizing before with
  | nil =>
    simp only [cutAt, Option.map_eq_some_iff, Prod.mk.injEq] at h
    obtain ⟨rest, hrest, rfl, rfl⟩ := h
    simpa using skip?_eq_some_iff.mp hrest
  | cons c text ih =>
    simp only [cutAt] at h
    split at h
    · next rest hrest =>
      simp only [Option.some.injEq, Prod.mk.injEq] at h
      obtain ⟨rfl, rfl⟩ := h
      simpa using skip?_eq_some_iff.mp hrest
    · simp only [Option.map_eq_some_iff, Prod.mk.injEq] at h
      obtain ⟨cut, hcut, rfl, rfl⟩ := h
      simpa using @ih cut.1 hcut

/-! ### Replacement -/

/-- Replacement of every occurrence of `pattern` after the first `skipped` characters, which are
dropped. -/
def replaceFrom (pattern replacement : Text) : Nat → Text → Text
  | _, [] => []
  | skipped + 1, _ :: text => replaceFrom pattern replacement skipped text
  | 0, c :: text =>
    match skip? pattern (c :: text) with
    | some _ => replacement ++ replaceFrom pattern replacement (pattern.length - 1) text
    | none => c :: replaceFrom pattern replacement 0 text

/-- The text with every occurrence of `pattern`, found from left to right, replaced. An occurrence
that overlaps the one before it stays. -/
def replaceAll (pattern replacement text : Text) : Text :=
  replaceFrom pattern replacement 0 text

/-! ### Lines -/

/-- The lines of a text, which line feeds separate. -/
def lines : Text → List Text
  | [] => [[]]
  | c :: text =>
    if c = '\n' then [] :: lines text
    else
      match lines text with
      | [] => [[c]]
      | line :: rest => (c :: line) :: rest

/-- The lines written one after the other, with a line feed between two of them. -/
def unlines : List Text → Text
  | [] => []
  | [line] => line
  | line :: rest => line ++ '\n' :: unlines rest

/-- A text has at least one line. -/
theorem lines_ne_nil (text : Text) : lines text ≠ [] := by
  cases text with
  | nil => simp [lines]
  | cons c text => simp only [lines]; split; · simp
                   · split <;> simp

/-- **Joining the lines of a text gives it back.** -/
theorem unlines_lines (text : Text) : unlines (lines text) = text := by
  induction text with
  | nil => rfl
  | cons c text ih =>
    have hne := lines_ne_nil text
    simp only [lines]
    cases hl : lines text with
    | nil => exact absurd hl hne
    | cons line rest =>
      rw [hl] at ih
      split
      · next hc => simp [unlines, ih, hc]
      · cases rest with
        | nil => simp_all [unlines]
        | cons second rest => simp_all [unlines]

/-- The number of line feeds in a text. -/
def lineFeeds (text : Text) : Nat :=
  text.count '\n'

/-! ### Numbers and trimming -/

/-- The decimal digits of a number. -/
def ofNat (n : Nat) : Text :=
  Nat.toDigits 10 n

/-- The text without the characters of a class at its two ends. -/
def trim (blank : Char → Bool) (text : Text) : Text :=
  ((text.dropWhile blank).reverse.dropWhile blank).reverse

end Text

end SymbolDocs
