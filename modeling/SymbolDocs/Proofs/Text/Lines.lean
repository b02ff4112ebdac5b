import SymbolDocs.Text.Basic
set_option autoImplicit false

/-!
# Lines

Line feeds separate the lines of a text and stand in none of them, so that the lines are known from
the text and the text from its lines. What holds no line feed occurs in a text where it occurs in a
line of it.

## Main results

* `Text.lineFeed_not_mem_of_mem_lines` — no line holds a line feed.
* `Text.lines_unlines` — texts without line feeds are the lines of the text they are joined to.
* `Text.lines_map` — a change of characters that keeps line feeds changes line by line.
* `Text.infix_iff_exists_line` — a text without line feeds occurs in another where it occurs in one
  of its lines.
-/

namespace SymbolDocs

namespace Text

/-! ### Lines of joined texts -/

/-- A text without line feeds is its only line. -/
theorem lines_of_not_mem {line : Text} (h : '\n' ∉ line) : lines line = [line] := by
  induction line with
  | nil => rfl
  | cons c line ih =>
    obtain ⟨hc, hline⟩ := not_or.mp (mt List.mem_cons.mpr h)
    rw [lines, if_neg (Ne.symm hc), ih hline]

/-- A text without line feeds before a line feed is the first line. -/
theorem lines_append_lineFeed {line : Text} (h : '\n' ∉ line) (rest : Text) :
    lines (line ++ '\n' :: rest) = line :: lines rest := by
  induction line with
  | nil => rw [List.nil_append, lines, if_pos rfl]
  | cons c line ih =>
    obtain ⟨hc, hline⟩ := not_or.mp (mt List.mem_cons.mpr h)
    rw [List.cons_append, lines, if_neg (Ne.symm hc), ih hline]

/-- **Texts without line feeds are the lines of the text they are joined to.** -/
theorem lines_unlines {texts : List Text} (hne : texts ≠ []) (h : ∀ text ∈ texts, '\n' ∉ text) :
    lines (unlines texts) = texts := by
  induction texts with
  | nil => exact absurd rfl hne
  | cons first rest ih =>
    obtain ⟨hfirst, hrest⟩ := List.forall_mem_cons.mp h
    cases rest with
    | nil => exact lines_of_not_mem hfirst
    | cons second rest =>
      rw [unlines, lines_append_lineFeed hfirst, ih (List.cons_ne_nil second rest) hrest]
      exact List.cons_ne_nil second rest

/-! ### Line by line -/

/-- **No line holds a line feed.** -/
theorem lineFeed_not_mem_of_mem_lines {text line : Text} (h : line ∈ lines text) : '\n' ∉ line := by
  induction text generalizing line with
  | nil =>
    obtain rfl : line = [] := List.mem_singleton.mp h
    exact List.not_mem_nil
  | cons c text ih =>
    obtain ⟨first, rest, hlines⟩ := List.exists_cons_of_ne_nil (lines_ne_nil text)
    rw [lines, hlines] at h
    simp only [hlines, List.mem_cons] at ih
    split at h
    · rcases List.mem_cons.mp h with rfl | h
      · exact List.not_mem_nil
      · exact ih (List.mem_cons.mp h)
    · next hc =>
      rcases List.mem_cons.mp h with rfl | h
      · rw [List.mem_cons, not_or]
        exact ⟨Ne.symm hc, ih (.inl rfl)⟩
      · exact ih (.inr h)

/-- A change of characters that keeps line feeds, and makes none, changes line by line. -/
theorem lines_map {change : Char → Char} (h : ∀ c, change c = '\n' ↔ c = '\n') (text : Text) :
    lines (text.map change) = (lines text).map (List.map change) := by
  induction text with
  | nil => rfl
  | cons c text ih =>
    obtain ⟨first, rest, hlines⟩ := List.exists_cons_of_ne_nil (lines_ne_nil text)
    rw [List.map_cons, lines, lines, ih, hlines]
    by_cases hc : c = '\n'
    · rw [if_pos ((h c).mpr hc), if_pos hc]
      rfl
    · rw [if_neg (mt (h c).mp hc), if_neg hc]
      rfl

/-- What holds no line feed occurs on one side of a line feed. -/
theorem infix_append_lineFeed_iff {pattern : Text} (h : '\n' ∉ pattern) (line rest : Text) :
    pattern <:+: line ++ '\n' :: rest ↔ pattern <:+: line ∨ pattern <:+: rest := by
  constructor
  · rw [List.infix_append_iff, List.infix_cons_iff]
    rintro (hline | (hstart | hrest) | ⟨front, back, rfl, hfront, hback⟩)
    · exact .inl hline
    · rcases List.prefix_cons_iff.mp hstart with rfl | ⟨tail, rfl, -⟩
      · exact .inl List.nil_infix
      · exact absurd List.mem_cons_self h
    · exact .inr hrest
    · -- what crosses the end of the line would hold the line feed
      rcases List.prefix_cons_iff.mp hback with rfl | ⟨tail, rfl, -⟩
      · rw [List.append_nil]
        exact .inl hfront.isInfix
      · exact absurd (List.mem_append_right front List.mem_cons_self) h
  · rintro (hline | hrest)
    · exact hline.trans (List.prefix_append line _).isInfix
    · exact hrest.trans ((List.suffix_cons '\n' rest).trans (List.suffix_append line _)).isInfix

/-- What holds no line feed occurs in joined lines where it occurs in one of them. -/
theorem infix_unlines_iff {pattern : Text} (h : '\n' ∉ pattern) {texts : List Text}
    (hne : texts ≠ []) : pattern <:+: unlines texts ↔ ∃ line ∈ texts, pattern <:+: line := by
  induction texts with
  | nil => exact absurd rfl hne
  | cons first rest ih =>
    cases rest with
    | nil => simp [unlines]
    | cons second rest =>
      rw [unlines, infix_append_lineFeed_iff h, ih (List.cons_ne_nil second rest)]
      · simp only [List.mem_cons, exists_eq_or_imp]
      · exact List.cons_ne_nil second rest

/-- **A text without line feeds occurs in another where it occurs in one of its lines.** -/
theorem infix_iff_exists_line {pattern : Text} (h : '\n' ∉ pattern) (text : Text) :
    pattern <:+: text ↔ ∃ line ∈ lines text, pattern <:+: line := by
  rw [← infix_unlines_iff h (lines_ne_nil text), unlines_lines]

end Text

end SymbolDocs
