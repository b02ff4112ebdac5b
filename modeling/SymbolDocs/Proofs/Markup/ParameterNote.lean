import SymbolDocs.Markup.ParameterNote
import SymbolDocs.Proofs.Text.FirstOccurrence
set_option autoImplicit false

/-!
# The note on a parameter

Which part of a documentation text is the note on a parameter, told without the search for it: of
all start tags of the parameter that an end tag follows on their line, the first counts, and the
note runs from there to the first end tag behind it.

## Main definitions

* `Markup.NoteBetween` — a start tag and an end tag of a parameter on one line of a text.

## Main results

* `Markup.noteAt?_eq_some_iff` — the note that a text begins with.
* `Markup.parameterNote?_eq_some_iff_noteAt?` — the search ends where a text begins with a note.
* `Markup.parameterNote?_leftmost` — when there is a note, and which.

## Design

The name of the parameter is any text. Where it holds line feeds or an end tag itself, these belong
to the start tag: the line and the end tag are looked for behind it.
-/

namespace SymbolDocs

namespace Markup

/-! ### Notes at the beginning of a text -/

/-- A start tag of the parameter stands between `before` and `body`, an end tag between `body` and
`after`, and the body lies on one line. -/
structure NoteBetween (parameter text before body after : Text) : Prop where
  /-- The text is what stands around and between the tags, with the tags. -/
  text_eq : text = before ++ noteOpening parameter ++ body ++ noteClosing ++ after
  /-- No line feed stands between the tags. -/
  one_line : '\n' ∉ body

/-- The first line of a text that goes on with characters other than line feeds. -/
theorem takeWhile_line {line rest : Text} (h : '\n' ∉ line) :
    (line ++ rest).takeWhile (· ≠ '\n') = line ++ rest.takeWhile (· ≠ '\n') := by
  refine List.takeWhile_append_of_pos fun c hc => ?_
  simpa using fun heq : c = '\n' => h (heq ▸ hc)

/-- A text begins with its first line, which holds no line feed. -/
theorem exists_line (text : Text) :
    ∃ later, text = text.takeWhile (· ≠ '\n') ++ later ∧ '\n' ∉ text.takeWhile (· ≠ '\n') := by
  refine ⟨text.dropWhile (· ≠ '\n'), List.takeWhile_append_dropWhile.symm, fun hmem => ?_⟩
  simpa using List.all_eq_true.mp List.all_takeWhile '\n' hmem

/-- **A text begins with a note** where it begins with the start tag and an end tag follows on the
line. The note ends with the first end tag. -/
theorem noteAt?_eq_some_iff {parameter text note : Text} :
    noteAt? parameter text = some note ↔
      ∃ body after, NoteBetween parameter text [] body after ∧
        Text.EndsFirst noteClosing (body ++ noteClosing) ∧
        note = noteOpening parameter ++ body ++ noteClosing := by
  constructor
  · intro h
    obtain ⟨rest, hrest, h⟩ := Option.bind_eq_some_iff.mp h
    obtain ⟨⟨body, after⟩, hcut, h⟩ := Option.bind_eq_some_iff.mp h
    obtain rfl := Option.some.inj h
    obtain ⟨hline, hfirst⟩ := Text.cutAt_eq_some_iff.mp hcut
    obtain ⟨later, hlater, hfeed⟩ := exists_line rest
    rw [hline] at hlater hfeed
    have htext := Text.skip?_eq_some_iff.mp hrest
    refine ⟨body, after ++ later, ⟨?_, fun hmem => hfeed (by simp [hmem])⟩, hfirst, rfl⟩
    rw [htext, hlater]
    simp
  · rintro ⟨body, after, ⟨rfl, hline⟩, hfirst, rfl⟩
    have hskip : Text.skip? (noteOpening parameter)
        ([] ++ noteOpening parameter ++ body ++ noteClosing ++ after) =
          some (body ++ noteClosing ++ after) :=
      Text.skip?_eq_some_iff.mpr (by simp)
    have hfeed : '\n' ∉ body ++ noteClosing := by
      rw [List.mem_append, not_or]
      exact ⟨hline, by decide⟩
    have hcut := Text.cutAt_eq_some_iff.mpr
      ⟨rfl (a := body ++ noteClosing ++ after.takeWhile (· ≠ '\n')), hfirst⟩
    simp only [noteAt?, hskip, takeWhile_line hfeed, hcut, Option.bind_eq_bind, Option.bind_some]

/-- A text begins with a note exactly where an end tag follows on the line of the start tag. -/
theorem noteAt?_ne_none_iff {parameter text : Text} :
    noteAt? parameter text ≠ none ↔ ∃ body after, NoteBetween parameter text [] body after := by
  constructor
  · intro h
    obtain ⟨note, hnote⟩ := Option.ne_none_iff_exists'.mp h
    obtain ⟨body, after, hbetween, -⟩ := noteAt?_eq_some_iff.mp hnote
    exact ⟨body, after, hbetween⟩
  · rintro ⟨body, after, rfl, hline⟩
    -- the first end tag behind the start tag may stand inside the body
    obtain ⟨⟨first, rest⟩, hcut⟩ := Option.ne_none_iff_exists'.mp
      (Text.cutAt_ne_none noteClosing body [])
    obtain ⟨hsplit, hfirst⟩ := Text.cutAt_eq_some_iff.mp hcut
    rw [List.append_nil] at hsplit
    have hfeed : '\n' ∉ first := by
      intro hmem
      have hwhole : '\n' ∈ body ++ noteClosing := by simp [hsplit, hmem]
      rcases List.mem_append.mp hwhole with hbody | hclosing
      · exact hline hbody
      · exact absurd hclosing (by decide)
    have hbetween : NoteBetween parameter
        ([] ++ noteOpening parameter ++ body ++ noteClosing ++ after) [] first (rest ++ after) := by
      refine ⟨?_, hfeed⟩
      rw [List.append_assoc _ body, hsplit]
      simp
    rw [noteAt?_eq_some_iff.mpr ⟨first, rest ++ after, hbetween, hfirst, rfl⟩]
    exact Option.some_ne_none _

/-! ### The search -/

/-- A note in a text is a note at the beginning of what follows the text before it. -/
theorem noteBetween_iff {parameter text before body after : Text} :
    NoteBetween parameter text before body after ↔
      ∃ rest, text = before ++ rest ∧ NoteBetween parameter rest [] body after := by
  constructor
  · rintro ⟨rfl, hline⟩
    exact ⟨noteOpening parameter ++ body ++ noteClosing ++ after, by simp, rfl, hline⟩
  · rintro ⟨rest, rfl, rfl, hline⟩
    exact ⟨by simp, hline⟩

/-- The empty text begins with no note. -/
theorem noteAt?_nil (parameter : Text) : noteAt? parameter [] = none := rfl

/-- The search succeeds where what follows some part of the text begins with a note. -/
theorem parameterNote?_ne_none {parameter before rest : Text} (h : noteAt? parameter rest ≠ none) :
    parameterNote? parameter (before ++ rest) ≠ none := by
  induction before with
  | nil =>
    cases rest with
    | nil => exact absurd (noteAt?_nil parameter) h
    | cons c rest =>
      obtain ⟨note, hnote⟩ := Option.ne_none_iff_exists'.mp h
      rw [List.nil_append, parameterNote?, hnote]
      exact Option.some_ne_none note
  | cons c before ih =>
    rw [List.cons_append, parameterNote?]
    cases noteAt? parameter (c :: (before ++ rest)) with
    | some found => exact Option.some_ne_none found
    | none => exact ih

/-- **The search ends where the text begins with a note for the first time.** -/
theorem parameterNote?_eq_some_iff_noteAt? {parameter text note : Text} :
    parameterNote? parameter text = some note ↔
      ∃ before rest, text = before ++ rest ∧ noteAt? parameter rest = some note ∧
        ∀ earlier later, text = earlier ++ later → noteAt? parameter later ≠ none →
          before.length ≤ earlier.length := by
  induction text with
  | nil =>
    refine ⟨nofun, ?_⟩
    rintro ⟨before, rest, hsplit, hnote, -⟩
    obtain ⟨-, rfl⟩ := List.append_eq_nil_iff.mp hsplit.symm
    exact nomatch (noteAt?_nil parameter).symm.trans hnote
  | cons c text ih =>
    rw [parameterNote?]
    cases hat : noteAt? parameter (c :: text) with
    | some found =>
      constructor
      · intro h
        exact ⟨[], c :: text, rfl, hat.trans h, fun earlier _ _ _ => Nat.zero_le earlier.length⟩
      · rintro ⟨before, rest, hsplit, hnote, hfirst⟩
        have hstart := hfirst [] (c :: text) rfl (by simp [hat])
        obtain rfl := List.eq_nil_of_length_eq_zero (Nat.le_zero.mp hstart)
        obtain rfl : c :: text = rest := hsplit
        exact hat.symm.trans hnote
    | none =>
      refine ih.trans ⟨?_, ?_⟩
      · rintro ⟨before, rest, rfl, hnote, hfirst⟩
        refine ⟨c :: before, rest, rfl, hnote, fun earlier later hsplit hlater => ?_⟩
        cases earlier with
        | nil =>
          obtain rfl : c :: (before ++ rest) = later := hsplit
          exact absurd hat hlater
        | cons d earlier =>
          exact Nat.succ_le_succ (hfirst earlier later (List.cons.inj hsplit).2 hlater)
      · rintro ⟨before, rest, hsplit, hnote, hfirst⟩
        cases before with
        | nil =>
          obtain rfl : c :: text = rest := hsplit
          exact nomatch hat.symm.trans hnote
        | cons d before =>
          refine ⟨before, rest, (List.cons.inj hsplit).2, hnote, fun earlier later h hlater => ?_⟩
          exact Nat.le_of_succ_le_succ
            (hfirst (c :: earlier) later (congrArg (c :: ·) h) hlater)

/-- **The note on a parameter is the first one.** A documentation text has a note on a parameter
exactly where an end tag follows some start tag of the parameter before the next line feed. The note
begins with the first start tag of which this is so, and start tags before it without an end tag on
their line are passed over; it ends with the first end tag behind that start tag. -/
theorem parameterNote?_leftmost (parameter text : Text) :
    ((∃ note, parameterNote? parameter text = some note) ↔
      ∃ before body after, NoteBetween parameter text before body after) ∧
    ∀ note, parameterNote? parameter text = some note ↔
      ∃ before body after, NoteBetween parameter text before body after ∧
        (∀ earlier other later, NoteBetween parameter text earlier other later →
          before.length ≤ earlier.length) ∧
        Text.EndsFirst noteClosing (body ++ noteClosing) ∧
        note = noteOpening parameter ++ body ++ noteClosing := by
  constructor
  · constructor
    · rintro ⟨note, hnote⟩
      obtain ⟨before, rest, hsplit, hstart, -⟩ := parameterNote?_eq_some_iff_noteAt?.mp hnote
      obtain ⟨body, after, hbetween, -⟩ := noteAt?_eq_some_iff.mp hstart
      exact ⟨before, body, after, noteBetween_iff.mpr ⟨rest, hsplit, hbetween⟩⟩
    · rintro ⟨before, body, after, hbetween⟩
      obtain ⟨rest, rfl, hstart⟩ := noteBetween_iff.mp hbetween
      have hnote := noteAt?_ne_none_iff.mpr ⟨body, after, hstart⟩
      exact Option.ne_none_iff_exists'.mp (parameterNote?_ne_none hnote)
  · intro note
    rw [parameterNote?_eq_some_iff_noteAt?]
    constructor
    · rintro ⟨before, rest, hsplit, hnote, hleast⟩
      obtain ⟨body, after, hstart, hfirst, rfl⟩ := noteAt?_eq_some_iff.mp hnote
      refine ⟨before, body, after, noteBetween_iff.mpr ⟨rest, hsplit, hstart⟩, ?_, hfirst, rfl⟩
      intro earlier other later hbetween
      obtain ⟨remaining, hearlier, hother⟩ := noteBetween_iff.mp hbetween
      exact hleast earlier remaining hearlier (noteAt?_ne_none_iff.mpr ⟨other, later, hother⟩)
    · rintro ⟨before, body, after, hbetween, hleast, hfirst, rfl⟩
      obtain ⟨rest, hsplit, hstart⟩ := noteBetween_iff.mp hbetween
      refine ⟨before, rest, hsplit, noteAt?_eq_some_iff.mpr ⟨body, after, hstart, hfirst, rfl⟩, ?_⟩
      intro earlier later hearlier hnote
      obtain ⟨other, remaining, hother⟩ := noteAt?_ne_none_iff.mp hnote
      exact hleast earlier other remaining (noteBetween_iff.mpr ⟨later, hearlier, hother⟩)

example :
    parameterNote? ['p'] "<param name=\"p\">x\n</param><param name=\"p\"></param>".toList =
      some "<param name=\"p\"></param>".toList := by decide

end Markup

end SymbolDocs
