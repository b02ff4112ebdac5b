import SymbolDocs.Text.Digit
set_option autoImplicit false

/-!
# Reading joined texts apart

Two texts written one after the other can be told apart when a character of some class cannot stand
in the first and begins the second, or when the last separator is known.

## Main results

* `Text.append_inj_of_class` — the longest beginning within a class of characters is the first part.
* `Text.flatMap_cons_inj` — lists put together under headings are known from the whole.
* `Text.append_inj_of_last` — the last occurrence of a separator divides a text.
* `Text.mem_of_mem_intercalate` — where a character of joined texts comes from.
* `Text.ofNat_injective` — a number is known from its digits.
* `Text.ofNat_append_inj` — a number is known from its digits and what follows them.
-/

namespace SymbolDocs

namespace Text

/-- The beginning of a text within a class of characters, followed by nothing or by a character
outside the class, is determined by the whole text. The same holds of lists of anything else. -/
theorem append_inj_of_class {α : Type} {P : α → Prop} {a b r s : List α} (ha : ∀ c ∈ a, P c)
    (hb : ∀ c ∈ b, P c) (hr : ∀ c ∈ r.head?, ¬ P c) (hs : ∀ c ∈ s.head?, ¬ P c)
    (h : a ++ r = b ++ s) : a = b ∧ r = s := by
  induction a generalizing b with
  | nil =>
    cases b with
    | nil => exact ⟨rfl, h⟩
    | cons d b =>
      have hd : d ∈ r.head? := by simp [show r = d :: (b ++ s) from h]
      exact absurd (hb d List.mem_cons_self) (hr d hd)
  | cons c a ih =>
    cases b with
    | nil =>
      have hc : c ∈ s.head? := by simp [show s = c :: (a ++ r) from h.symm]
      exact absurd (ha c List.mem_cons_self) (hs c hc)
    | cons d b =>
      obtain ⟨rfl, htail⟩ := List.cons.inj h
      obtain ⟨rfl, hrest⟩ := ih (fun x hx => ha x (List.mem_cons_of_mem c hx))
        (fun x hx => hb x (List.mem_cons_of_mem c hx)) htail
      exact ⟨rfl, hrest⟩

/-- **Lists put together under headings are known from the whole**, where no heading is of the kind
of the items. -/
theorem flatMap_cons_inj {α β : Type} {P : β → Prop} {heading : α → β} {items others : α → List β}
    {parts : List α} (hheading : ∀ part ∈ parts, ¬ P (heading part))
    (hitems : ∀ part ∈ parts, ∀ item ∈ items part, P item)
    (hothers : ∀ part ∈ parts, ∀ item ∈ others part, P item) :
    (parts.flatMap fun part => heading part :: items part) =
        (parts.flatMap fun part => heading part :: others part) ↔
      ∀ part ∈ parts, items part = others part := by
  constructor
  case mpr =>
    intro h
    rw [List.flatMap_def, List.flatMap_def,
      List.map_congr_left fun part hpart => by rw [h part hpart]]
  intro h
  induction parts with
  | nil => exact nofun
  | cons part parts ih =>
    rw [List.forall_mem_cons] at hheading hitems hothers ⊢
    rw [List.flatMap_cons, List.flatMap_cons, List.cons_append, List.cons_append] at h
    -- what follows the items of the first part is nothing or the heading of the second
    have hends : ∀ own : α → List β,
        ∀ item ∈ (parts.flatMap fun part => heading part :: own part).head?, ¬ P item := by
      intro own item hitem
      cases parts with
      | nil => exact nomatch hitem
      | cons second parts =>
        obtain rfl : heading second = item := by simpa using hitem
        exact hheading.2 second List.mem_cons_self
    obtain ⟨hfirst, hrest⟩ := append_inj_of_class hitems.1 hothers.1 (hends items)
      (hends others) (List.cons.inj h).2
    exact ⟨hfirst, ih hheading.2 hitems.2 hothers.2 hrest⟩

/-- The last occurrence of a separator divides a text in one way only.

**Proof sketch.** In reverse, the text begins with the characters after the last separator. -/
theorem append_inj_of_last {separator : Char} {a b r s : Text} (hr : separator ∉ r)
    (hs : separator ∉ s) (h : a ++ separator :: r = b ++ separator :: s) : a = b ∧ r = s := by
  have hrev : r.reverse ++ separator :: a.reverse = s.reverse ++ separator :: b.reverse := by
    simpa using congrArg List.reverse h
  obtain ⟨hleft, hright⟩ := append_inj_of_class (P := (· ≠ separator))
    (fun c hc hsep => hr (by simpa [hsep] using hc))
    (fun c hc hsep => hs (by simpa [hsep] using hc)) (by simp) (by simp) hrev
  exact ⟨List.reverse_inj.mp (List.cons.inj hright).2, List.reverse_inj.mp hleft⟩

/-- A character of joined texts is one of the separator or of one of the texts. -/
theorem mem_of_mem_intercalate {separator : Text} {texts : List Text} {c : Char}
    (h : c ∈ List.intercalate separator texts) : c ∈ separator ∨ ∃ text ∈ texts, c ∈ text := by
  induction texts with
  | nil => exact absurd h List.not_mem_nil
  | cons first rest ih =>
    cases rest with
    | nil => exact .inr ⟨first, List.mem_cons_self, by simpa using h⟩
    | cons second rest =>
      rw [List.intercalate_cons_cons, List.mem_append, List.mem_append] at h
      rcases h with (h | h) | h
      · exact .inr ⟨first, List.mem_cons_self, h⟩
      · exact .inl h
      · rcases ih h with h | ⟨text, htext, h⟩
        · exact .inl h
        · exact .inr ⟨text, List.mem_cons_of_mem first htext, h⟩

/-! ### Numbers -/

/-- The digits of a number are decimal digits. -/
theorem isDigit_of_mem_ofNat {n : Nat} {c : Char} (h : c ∈ ofNat n) : c.isDigit = true :=
  Nat.isDigit_of_mem_toDigits (by decide) (by decide) h

/-- A number has at least one digit. -/
theorem ofNat_ne_nil (n : Nat) : ofNat n ≠ [] :=
  Nat.toDigits_ne_nil

/-- **A number is known from its digits.** -/
theorem ofNat_injective {m n : Nat} (h : ofNat m = ofNat n) : m = n := by
  have hvalue := congrArg (fun digits => Nat.ofDigitChars 10 digits 0) h
  simpa only [ofNat, Nat.ofDigitChars_ten_toDigits] using hvalue

/-- A number is known from its digits also where other text follows them. -/
theorem ofNat_append_inj {m n : Nat} {r s : Text} (hr : ∀ c ∈ r.head?, c.isDigit = false)
    (hs : ∀ c ∈ s.head?, c.isDigit = false) (h : ofNat m ++ r = ofNat n ++ s) : m = n ∧ r = s := by
  obtain ⟨hdigits, hrest⟩ := append_inj_of_class (P := fun c => c.isDigit = true)
    (fun _ => isDigit_of_mem_ofNat) (fun _ => isDigit_of_mem_ofNat)
    (fun c hc => by simp [hr c hc]) (fun c hc => by simp [hs c hc]) h
  exact ⟨ofNat_injective hdigits, hrest⟩

end Text

end SymbolDocs
