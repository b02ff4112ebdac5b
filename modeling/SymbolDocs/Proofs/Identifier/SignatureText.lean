import SymbolDocs.Proofs.Identifier.Signature
import SymbolDocs.Proofs.Text.Reading
set_option autoImplicit false

/-!
# The written form of signatures

The written form of a signature can be read back: where names hold no character that the form uses
itself, a signature is determined by its text, also when more text follows that a signature cannot
go on with.

## Main definitions

* `TypeSignature.text` — the written form.
* `TypeSignature.Legible` — every path has segments, their names hold no delimiter, and arrays have
  a dimension.

## Main results

* `TypeSignature.separates` — a legible signature, with wrappers and a stop behind it, is determined
  by the text.
* `TypeSignature.text_injective` — the same without anything behind the signature.
* `TypeSignature.commaSeparated_append_inj` — a bracketed list of signatures is determined by its
  text.

## Design

Wrappers stand behind their element, so the text of a wrapped signature begins with the whole text
of another one. What is proved by induction therefore speaks of a signature together with the
wrappers written behind it.
-/

namespace SymbolDocs

open Naming

/-! ### Texts -/

/-- The written form of a reference: one backtick for a parameter of the type, two for one of the
member. -/
def GenericReference.text (target : GenericReference) : Text :=
  match target.level with
  | .ofType => '\x60' :: Text.ofNat target.position
  | .ofMember => '\x60' :: '\x60' :: Text.ofNat target.position

/-- The written form of a wrapper. -/
def Wrapper.text : Wrapper → Text
  | .array rank => dimensions rank
  | .pointer => ['*']
  | .byRef => ['@']

namespace TypeSignature

mutual

/-- The written form of a signature. -/
def text : TypeSignature → Text
  | .reference target => target.text
  | .path segments => List.intercalate ['.'] (segmentTexts segments)
  | .wrapped wrapper element => text element ++ wrapper.text

/-- The written forms of some segments. -/
def segmentTexts : List (Text × List TypeSignature) → List Text
  | [] => []
  | (name, arguments) :: rest => (name ++ braces (texts arguments)) :: segmentTexts rest

/-- The written forms of some signatures. -/
def texts : List TypeSignature → List Text
  | [] => []
  | signature :: rest => text signature :: texts rest

end

/-- A signature under some wrappers, the innermost first. -/
def wrap (signature : TypeSignature) (wrappers : List Wrapper) : TypeSignature :=
  wrappers.foldl (fun element wrapper => .wrapped wrapper element) signature

/-- The written form of some wrappers. -/
def wrapperTexts (wrappers : List Wrapper) : Text :=
  wrappers.flatMap Wrapper.text

/-! ### Legible signatures -/

/-- The characters that end a name within a signature. -/
def isDelimiter (c : Char) : Bool :=
  c ∈ ['.', ',', '(', ')', '\x7b', '\x7d', '[', ']', '*', '@', '~']

/-- A delimiter is no digit. -/
theorem isDigit_of_isDelimiter {c : Char} (h : isDelimiter c = true) : c.isDigit = false := by
  revert h
  simp only [isDelimiter, List.mem_cons, List.not_mem_nil, or_false, decide_eq_true_eq]
  rintro (rfl | rfl | rfl | rfl | rfl | rfl | rfl | rfl | rfl | rfl | rfl) <;> rfl

/-- A name that can be told from what stands around it. -/
structure IsSegmentName (name : Text) : Prop where
  /-- The name is not empty. -/
  ne_nil : name ≠ []
  /-- The name does not begin like a reference. -/
  head_ne : name.head? ≠ some '\x60'
  /-- The name holds no delimiter. -/
  not_delimiter : ∀ c ∈ name, isDelimiter c = false

/-- A signature whose written form can be read back. -/
inductive Legible : TypeSignature → Prop where
  /-- A reference always can. -/
  | reference (target : GenericReference) : Legible (.reference target)
  /-- A path can that has a segment, where the names can be told from what stands around them and
  the arguments can be read back. -/
  | path {segments : List (Text × List TypeSignature)} (ne_nil : segments ≠ [])
      (names : ∀ segment ∈ segments, IsSegmentName segment.1)
      (arguments : ∀ segment ∈ segments, ∀ argument ∈ segment.2, Legible argument) :
      Legible (.path segments)
  /-- A wrapper over a legible element can, unless it is an array without a dimension. -/
  | wrapped {wrapper : Wrapper} {element : TypeSignature} (rank : wrapper ≠ .array 0)
      (legible : Legible element) : Legible (.wrapped wrapper element)

/-! ### Ends of names and of signatures -/

/-- A text that no signature can go on with: it is empty or begins with a character that follows a
whole signature. -/
def Stops (text : Text) : Prop :=
  ∀ c ∈ text.head?, c ∈ [',', ')', '\x7d', '~']

/-- A text that no path can go on with: it is empty or begins with a delimiter that follows a whole
path. -/
def EndsPath (text : Text) : Prop :=
  ∀ c ∈ text.head?, isDelimiter c = true ∧ c ≠ '.' ∧ c ≠ '\x7b'

/-- The written form of a wrapper is not empty, and begins with a bracket, an asterisk or an at
sign. -/
theorem wrapper_text_head (wrapper : Wrapper) :
    ∃ c rest, wrapper.text = c :: rest ∧ c ∈ ['[', '*', '@'] := by
  cases wrapper with
  | array rank =>
    simp only [Wrapper.text, dimensions]
    split
    · exact ⟨'[', [']'], rfl, by decide⟩
    · exact ⟨'[', _, rfl, by decide⟩
  | pointer => exact ⟨'*', [], rfl, by decide⟩
  | byRef => exact ⟨'@', [], rfl, by decide⟩

/-- The written form of a wrapper does not begin with a digit. -/
theorem isDigit_head_wrapper_text (wrapper : Wrapper) :
    ∀ c ∈ wrapper.text.head?, Text.isDigit c = false := by
  obtain ⟨first, rest, htext, hfirst⟩ := wrapper_text_head wrapper
  intro c hc
  obtain rfl : first = c := by simpa [htext] using hc
  revert hfirst
  simp only [List.mem_cons, List.not_mem_nil, or_false]
  rintro (rfl | rfl | rfl) <;> decide

/-- A path ends before wrappers and a stop. -/
theorem endsPath_wrapperTexts (wrappers : List Wrapper) {rest : Text} (hrest : Stops rest) :
    EndsPath (wrapperTexts wrappers ++ rest) := by
  intro c hc
  cases wrappers with
  | nil =>
    have hstop := hrest c (by simpa [wrapperTexts] using hc)
    revert hstop
    simp only [List.mem_cons, List.not_mem_nil, or_false]
    rintro (rfl | rfl | rfl | rfl) <;> decide
  | cons wrapper wrappers =>
    obtain ⟨d, more, htext, hd⟩ := wrapper_text_head wrapper
    obtain rfl : d = c := by simpa [wrapperTexts, htext] using hc
    revert hd
    simp only [List.mem_cons, List.not_mem_nil, or_false]
    rintro (rfl | rfl | rfl) <;> decide

/-! ### Wrappers -/

/-- A single text is a list without commas. -/
theorem commaSeparated_singleton (text : Text) : commaSeparated [text] = text := by
  simp [commaSeparated]

/-- A comma stands behind the first of several texts. -/
theorem commaSeparated_cons_cons (first second : Text) (rest : List Text) :
    commaSeparated (first :: second :: rest) =
      first ++ ',' :: commaSeparated (second :: rest) := by
  simp [commaSeparated, List.intercalate_cons_cons]

/-- The list of dimensions has as many colons as there are dimensions. -/
theorem count_replicate_dimension (n : Nat) :
    (commaSeparated (List.replicate n "0:".toList)).count ':' = n := by
  induction n with
  | zero => rfl
  | succ n ih =>
    cases n with
    | zero => rfl
    | succ n =>
      have hfirst : "0:".toList.count ':' = 1 := rfl
      rw [List.replicate_succ] at ih
      rw [List.replicate_succ, List.replicate_succ, commaSeparated_cons_cons, List.count_append,
        List.count_cons_of_ne (by decide), ih, hfirst, Nat.add_comm]

/-- No bracket stands in the list of dimensions. -/
theorem not_mem_replicate_dimension (n : Nat) :
    ']' ∉ commaSeparated (List.replicate n "0:".toList) := by
  induction n with
  | zero => exact List.not_mem_nil
  | succ n ih =>
    cases n with
    | zero => decide
    | succ n =>
      rw [List.replicate_succ] at ih
      rw [List.replicate_succ, List.replicate_succ, commaSeparated_cons_cons, List.mem_append,
        List.mem_cons]
      rintro (h | h | h)
      · exact absurd h (by decide)
      · exact absurd h (by decide)
      · exact ih h

/-- The dimensions of an array are brackets around a list without a bracket, whose colons tell the
rank. -/
theorem dimensions_eq {rank : UInt32} (hrank : rank ≠ 0) :
    ∃ inner, dimensions rank = '[' :: inner ++ [']'] ∧ ']' ∉ inner ∧
      rank.toNat = if inner.count ':' = 0 then 1 else inner.count ':' := by
  have hpos : rank.toNat ≠ 0 := fun h => hrank (UInt32.toNat_inj.mp h)
  simp only [dimensions]
  split
  · next h => exact ⟨[], rfl, List.not_mem_nil, by simp [h]⟩
  · refine ⟨_, rfl, not_mem_replicate_dimension _, ?_⟩
    rw [count_replicate_dimension, if_neg hpos]

/-- A wrapper that is no array without a dimension is determined by its text. -/
theorem wrapper_text_append_inj {w₁ w₂ : Wrapper} {r s : Text} (h₁ : w₁ ≠ .array 0)
    (h₂ : w₂ ≠ .array 0) (h : w₁.text ++ r = w₂.text ++ s) : w₁ = w₂ ∧ r = s := by
  have harray : ∀ rank : UInt32, Wrapper.array rank ≠ .array 0 → rank ≠ 0 :=
    fun rank hne h => hne (by rw [h])
  cases w₁ with
  | array rank₁ =>
    obtain ⟨inner₁, htext₁, hin₁, hcount₁⟩ := dimensions_eq (harray rank₁ h₁)
    cases w₂ with
    | array rank₂ =>
      obtain ⟨inner₂, htext₂, hin₂, hcount₂⟩ := dimensions_eq (harray rank₂ h₂)
      simp only [Wrapper.text, htext₁, htext₂, List.cons_append, List.append_assoc,
        List.nil_append, List.cons.injEq, true_and] at h
      obtain ⟨rfl, hrest⟩ := Text.append_inj_of_class (P := (· ≠ ']'))
        (fun c hc hbracket => hin₁ (hbracket ▸ hc)) (fun c hc hbracket => hin₂ (hbracket ▸ hc))
        (by simp) (by simp) h
      have hrank : rank₁ = rank₂ := UInt32.toNat_inj.mp (hcount₁.trans hcount₂.symm)
      exact ⟨by rw [hrank], (List.cons.inj hrest).2⟩
    | pointer => simp [Wrapper.text, htext₁] at h
    | byRef => simp [Wrapper.text, htext₁] at h
  | pointer =>
    cases w₂ with
    | array rank₂ =>
      obtain ⟨inner₂, htext₂, -⟩ := dimensions_eq (harray rank₂ h₂)
      simp [Wrapper.text, htext₂] at h
    | pointer => exact ⟨rfl, (List.cons.inj h).2⟩
    | byRef => simp [Wrapper.text] at h
  | byRef =>
    cases w₂ with
    | array rank₂ =>
      obtain ⟨inner₂, htext₂, -⟩ := dimensions_eq (harray rank₂ h₂)
      simp [Wrapper.text, htext₂] at h
    | pointer => simp [Wrapper.text] at h
    | byRef => exact ⟨rfl, (List.cons.inj h).2⟩

/-- Some wrappers with a stop behind them are determined by their text. -/
theorem wrapperTexts_append_inj {ws₁ ws₂ : List Wrapper} {r₁ r₂ : Text}
    (h₁ : ∀ w ∈ ws₁, w ≠ .array 0) (h₂ : ∀ w ∈ ws₂, w ≠ .array 0) (hr₁ : Stops r₁)
    (hr₂ : Stops r₂) (h : wrapperTexts ws₁ ++ r₁ = wrapperTexts ws₂ ++ r₂) :
    ws₁ = ws₂ ∧ r₁ = r₂ := by
  -- a wrapper is no stop
  have hstop : ∀ (w : Wrapper) (rest r : Text), Stops r → r ≠ w.text ++ rest := by
    intro w rest r hr heq
    obtain ⟨c, more, htext, hc⟩ := wrapper_text_head w
    have hmem := hr c (by simp [heq, htext])
    revert hmem hc
    simp only [List.mem_cons, List.not_mem_nil, or_false]
    rintro (rfl | rfl | rfl | rfl) <;> decide
  induction ws₁ generalizing ws₂ with
  | nil =>
    cases ws₂ with
    | nil => exact ⟨rfl, h⟩
    | cons w ws => exact absurd (by simpa [wrapperTexts] using h) (hstop w _ r₁ hr₁)
  | cons w ws ih =>
    cases ws₂ with
    | nil => exact absurd (by simpa [wrapperTexts] using h.symm) (hstop w _ r₂ hr₂)
    | cons v vs =>
      simp only [wrapperTexts, List.flatMap_cons, List.append_assoc] at h
      obtain ⟨rfl, hrest⟩ :=
        wrapper_text_append_inj (h₁ w List.mem_cons_self) (h₂ v List.mem_cons_self) h
      obtain ⟨rfl, hr⟩ := ih (fun x hx => h₁ x (List.mem_cons_of_mem w hx))
        (fun x hx => h₂ x (List.mem_cons_of_mem w hx)) hrest
      exact ⟨rfl, hr⟩

/-! ### Reading signatures back -/

/-- Two signatures, with wrappers and a stop behind each, are told apart by their texts. -/
def SeparatesFrom (s₁ s₂ : TypeSignature) : Prop :=
  ∀ (ws₁ ws₂ : List Wrapper) (r₁ r₂ : Text), (∀ w ∈ ws₁, w ≠ .array 0) →
    (∀ w ∈ ws₂, w ≠ .array 0) → Stops r₁ → Stops r₂ →
    s₁.text ++ (wrapperTexts ws₁ ++ r₁) = s₂.text ++ (wrapperTexts ws₂ ++ r₂) →
    s₁.wrap ws₁ = s₂.wrap ws₂ ∧ r₁ = r₂

/-- Telling apart is symmetric. -/
theorem SeparatesFrom.symm {s₁ s₂ : TypeSignature} (h : s₁.SeparatesFrom s₂) :
    s₂.SeparatesFrom s₁ := by
  intro ws₂ ws₁ r₂ r₁ hws₂ hws₁ hr₂ hr₁ heq
  obtain ⟨hwrap, hrest⟩ := h ws₁ ws₂ r₁ r₂ hws₁ hws₂ hr₁ hr₂ heq.symm
  exact ⟨hwrap.symm, hrest.symm⟩

/-- A wrapper of the signature is one more wrapper behind its element. -/
theorem SeparatesFrom.wrapped {s₁ s₂ : TypeSignature} {wrapper : Wrapper}
    (h : s₁.SeparatesFrom s₂) (hrank : wrapper ≠ .array 0) :
    (TypeSignature.wrapped wrapper s₁).SeparatesFrom s₂ := by
  intro ws₁ ws₂ r₁ r₂ hws₁ hws₂ hr₁ hr₂ heq
  have hall : ∀ w ∈ wrapper :: ws₁, w ≠ .array 0 := by
    simpa using ⟨hrank, hws₁⟩
  exact h (wrapper :: ws₁) ws₂ r₁ r₂ hall hws₂ hr₁ hr₂ (by
    simpa [text, wrapperTexts, List.append_assoc] using heq)

/-- Without wrappers behind them, signatures told apart by their texts are equal. -/
theorem SeparatesFrom.eq {s₁ s₂ : TypeSignature} {r₁ r₂ : Text} (h : s₁.SeparatesFrom s₂)
    (hr₁ : Stops r₁) (hr₂ : Stops r₂) (heq : s₁.text ++ r₁ = s₂.text ++ r₂) :
    s₁ = s₂ ∧ r₁ = r₂ :=
  h [] [] r₁ r₂ (by simp) (by simp) hr₁ hr₂ heq

/-- References are told apart: the backticks tell the level, the digits the position. -/
theorem separatesFrom_reference (target₁ target₂ : GenericReference) :
    (reference target₁).SeparatesFrom (reference target₂) := by
  intro ws₁ ws₂ r₁ r₂ hws₁ hws₂ hr₁ hr₂ heq
  have hnot : ∀ (ws : List Wrapper) (r : Text), Stops r →
      ∀ c ∈ (wrapperTexts ws ++ r).head?, c.isDigit = false := by
    intro ws r hr c hc
    exact isDigit_of_isDelimiter (endsPath_wrapperTexts ws hr c hc).1
  have htick : ∀ (n : Nat) (r s : Text), Text.ofNat n ++ r ≠ '\x60' :: s := by
    intro n r s h
    cases hdigits : Text.ofNat n with
    | nil => exact Text.ofNat_ne_nil n hdigits
    | cons c digits =>
      have hdigit : c.isDigit = true :=
        Text.isDigit_of_mem_ofNat (n := n) (by simp [hdigits])
      simp only [hdigits, List.cons_append, List.cons.injEq] at h
      rw [h.1] at hdigit
      exact absurd hdigit (by decide)
  obtain ⟨level₁, position₁⟩ := target₁
  obtain ⟨level₂, position₂⟩ := target₂
  have hpositions : level₁ = level₂ ∧ Text.ofNat position₁ ++ (wrapperTexts ws₁ ++ r₁) =
      Text.ofNat position₂ ++ (wrapperTexts ws₂ ++ r₂) := by
    cases level₁ <;> cases level₂ <;>
      simp only [text, GenericReference.text, List.cons_append, List.cons.injEq, true_and] at heq
    · exact ⟨rfl, heq⟩
    · exact absurd heq (htick _ _ _)
    · exact absurd heq.symm (htick _ _ _)
    · exact ⟨rfl, heq⟩
  obtain ⟨rfl, hdigits⟩ := hpositions
  obtain ⟨rfl, htail⟩ := Text.ofNat_append_inj (hnot ws₁ r₁ hr₁) (hnot ws₂ r₂ hr₂) hdigits
  obtain ⟨rfl, rfl⟩ := wrapperTexts_append_inj hws₁ hws₂ hr₁ hr₂ htail
  exact ⟨rfl, rfl⟩

/-- A list of signatures, separated by commas and closed by a bracket, is determined by its text
where each of the first list is told from every legible one. -/
theorem commaSeparated_append_inj {close : Char} {m₁ m₂ : Text} (hclose : Stops [close])
    (hcomma : close ≠ ',') {a₁ : TypeSignature} {l₁ : List TypeSignature} {a₂ : TypeSignature}
    {l₂ : List TypeSignature}
    (h₁ : ∀ a ∈ a₁ :: l₁, ∀ s : TypeSignature, s.Legible → a.SeparatesFrom s)
    (h₂ : ∀ a ∈ a₂ :: l₂, a.Legible)
    (h : commaSeparated (texts (a₁ :: l₁)) ++ close :: m₁ =
      commaSeparated (texts (a₂ :: l₂)) ++ close :: m₂) :
    a₁ :: l₁ = a₂ :: l₂ ∧ m₁ = m₂ := by
  have hfirst := h₁ a₁ List.mem_cons_self a₂ (h₂ a₂ List.mem_cons_self)
  have hstop : ∀ m : Text, Stops (close :: m) := fun m c hc => hclose c (by simpa using hc)
  have hstopComma : ∀ m : Text, Stops (',' :: m) := fun m c hc => by
    simp only [List.head?_cons, Option.mem_def, Option.some.injEq] at hc
    simp [← hc]
  induction l₁ generalizing a₁ a₂ l₂ with
  | nil =>
    cases l₂ with
    | nil =>
      simp only [texts, commaSeparated_singleton] at h
      obtain ⟨rfl, hm⟩ := hfirst.eq (hstop m₁) (hstop m₂) h
      exact ⟨rfl, (List.cons.inj hm).2⟩
    | cons b₂ l₂ =>
      simp only [texts, commaSeparated_singleton, commaSeparated_cons_cons, List.append_assoc,
        List.cons_append] at h
      obtain ⟨-, hm⟩ := hfirst.eq (hstop m₁) (hstopComma _) h
      exact absurd (List.cons.inj hm).1 hcomma
  | cons b₁ l₁ ih =>
    cases l₂ with
    | nil =>
      simp only [texts, commaSeparated_singleton, commaSeparated_cons_cons, List.append_assoc,
        List.cons_append] at h
      obtain ⟨-, hm⟩ := hfirst.eq (hstopComma _) (hstop m₂) h
      exact absurd (List.cons.inj hm).1.symm hcomma
    | cons b₂ l₂ =>
      simp only [texts, commaSeparated_cons_cons, List.append_assoc, List.cons_append] at h
      obtain ⟨rfl, hm⟩ := hfirst.eq (hstopComma _) (hstopComma _) h
      have hb₁ : ∀ a ∈ b₁ :: l₁, ∀ s : TypeSignature, s.Legible → a.SeparatesFrom s :=
        fun a ha => h₁ a (List.mem_cons_of_mem _ ha)
      have hb₂ : ∀ a ∈ b₂ :: l₂, a.Legible := fun a ha => h₂ a (List.mem_cons_of_mem _ ha)
      obtain ⟨hlist, hrest⟩ := ih hb₁ hb₂ (List.cons.inj hm).2
        (hb₁ b₁ List.mem_cons_self b₂ (hb₂ b₂ List.mem_cons_self))
      exact ⟨by rw [hlist], hrest⟩

/-- A text that no segment can go on with: it is empty or begins with a delimiter that opens no
list of arguments. -/
def EndsSegment (text : Text) : Prop :=
  ∀ c ∈ text.head?, isDelimiter c = true ∧ c ≠ '\x7b'

/-- A segment is determined by its text. -/
theorem segment_append_inj {name₁ name₂ : Text} {l₁ l₂ : List TypeSignature} {m₁ m₂ : Text}
    (hname₁ : IsSegmentName name₁) (hname₂ : IsSegmentName name₂)
    (h₁ : ∀ a ∈ l₁, ∀ s : TypeSignature, s.Legible → a.SeparatesFrom s)
    (h₂ : ∀ a ∈ l₂, a.Legible) (hm₁ : EndsSegment m₁) (hm₂ : EndsSegment m₂)
    (h : name₁ ++ (braces (texts l₁) ++ m₁) = name₂ ++ (braces (texts l₂) ++ m₂)) :
    name₁ = name₂ ∧ l₁ = l₂ ∧ m₁ = m₂ := by
  have hends : ∀ (l : List TypeSignature) (m : Text), EndsSegment m →
      ∀ c ∈ (braces (texts l) ++ m).head?, ¬ isDelimiter c = false := by
    intro l m hm c hc
    cases l with
    | nil => simp [(hm c (by simpa [texts, braces] using hc)).1]
    | cons a l =>
      obtain rfl : '\x7b' = c := by simpa [texts, braces] using hc
      decide
  obtain ⟨rfl, hrest⟩ := Text.append_inj_of_class (P := fun c => isDelimiter c = false)
    hname₁.not_delimiter hname₂.not_delimiter (hends l₁ m₁ hm₁) (hends l₂ m₂ hm₂) h
  refine ⟨rfl, ?_⟩
  cases l₁ with
  | nil =>
    cases l₂ with
    | nil => exact ⟨rfl, hrest⟩
    | cons a₂ l₂ =>
      exact absurd rfl (hm₁ '\x7b' (by simp [show m₁ = _ from hrest, texts, braces])).2
  | cons a₁ l₁ =>
    cases l₂ with
    | nil =>
      exact absurd rfl (hm₂ '\x7b' (by simp [show m₂ = _ from hrest.symm, texts, braces])).2
    | cons a₂ l₂ =>
      have hlist : commaSeparated (texts (a₁ :: l₁)) ++ '\x7d' :: m₁ =
          commaSeparated (texts (a₂ :: l₂)) ++ '\x7d' :: m₂ := by
        simpa [texts, braces] using hrest
      exact commaSeparated_append_inj (by simp [Stops]) (by decide) h₁ h₂ hlist

/-- The written form of the segments behind the first, each after a dot. -/
def dottedTexts (segments : List (Text × List TypeSignature)) : Text :=
  (segmentTexts segments).flatMap fun segment => '.' :: segment

/-- The text of a path is that of its first segment and the dotted texts of the others. -/
theorem text_path_cons (name : Text) (l : List TypeSignature)
    (segments : List (Text × List TypeSignature)) :
    (path ((name, l) :: segments)).text = name ++ braces (texts l) ++ dottedTexts segments := by
  simp only [text, segmentTexts]
  generalize name ++ braces (texts l) = first
  induction segments generalizing first with
  | nil => simp [segmentTexts, dottedTexts]
  | cons segment segments ih =>
    obtain ⟨other, arguments⟩ := segment
    rw [segmentTexts, List.intercalate_cons_cons, ih]
    simp [dottedTexts, segmentTexts]

/-- Segments after dots are determined by their text. -/
theorem dottedTexts_append_inj {segments₁ segments₂ : List (Text × List TypeSignature)}
    {m₁ m₂ : Text}
    (hnames₁ : ∀ segment ∈ segments₁, IsSegmentName segment.1)
    (hnames₂ : ∀ segment ∈ segments₂, IsSegmentName segment.1)
    (h₁ : ∀ segment ∈ segments₁, ∀ a ∈ segment.2,
      ∀ s : TypeSignature, s.Legible → a.SeparatesFrom s)
    (h₂ : ∀ segment ∈ segments₂, ∀ a ∈ segment.2, a.Legible)
    (hm₁ : EndsPath m₁) (hm₂ : EndsPath m₂)
    (h : dottedTexts segments₁ ++ m₁ = dottedTexts segments₂ ++ m₂) :
    segments₁ = segments₂ ∧ m₁ = m₂ := by
  have hnoDot : ∀ m n : Text, EndsPath m → m ≠ '.' :: n := fun m n hm heq =>
    absurd rfl (hm '.' (by rw [heq]; rfl)).2.1
  have hends : ∀ (segments : List (Text × List TypeSignature)) (m : Text), EndsPath m →
      EndsSegment (dottedTexts segments ++ m) := by
    intro segments m hm c hc
    cases segments with
    | nil =>
      have hc := hm c (by simpa [dottedTexts, segmentTexts] using hc)
      exact ⟨hc.1, hc.2.2⟩
    | cons segment segments =>
      obtain rfl : '.' = c := by simpa [dottedTexts, segmentTexts] using hc
      decide
  induction segments₁ generalizing segments₂ with
  | nil =>
    cases segments₂ with
    | nil => exact ⟨rfl, h⟩
    | cons segment₂ segments₂ => exact absurd h (hnoDot m₁ _ hm₁)
  | cons segment₁ segments₁ ih =>
    cases segments₂ with
    | nil => exact absurd h.symm (hnoDot m₂ _ hm₂)
    | cons segment₂ segments₂ =>
      obtain ⟨name₁, l₁⟩ := segment₁
      obtain ⟨name₂, l₂⟩ := segment₂
      simp only [dottedTexts, segmentTexts, List.flatMap_cons, List.cons_append,
        List.append_assoc, List.cons.injEq, true_and] at h
      obtain ⟨rfl, rfl, hrest⟩ := segment_append_inj
        (hnames₁ _ List.mem_cons_self) (hnames₂ _ List.mem_cons_self)
        (h₁ _ List.mem_cons_self) (h₂ _ List.mem_cons_self)
        (hends segments₁ m₁ hm₁) (hends segments₂ m₂ hm₂) h
      obtain ⟨rfl, hm⟩ := ih (fun segment hs => hnames₁ segment (List.mem_cons_of_mem _ hs))
        (fun segment hs => hnames₂ segment (List.mem_cons_of_mem _ hs))
        (fun segment hs => h₁ segment (List.mem_cons_of_mem _ hs))
        (fun segment hs => h₂ segment (List.mem_cons_of_mem _ hs)) hrest
      exact ⟨rfl, hm⟩

/-- Paths are told apart where the arguments of the first are. -/
theorem separatesFrom_path {segments₁ segments₂ : List (Text × List TypeSignature)}
    (hlegible₁ : (path segments₁).Legible) (hlegible₂ : (path segments₂).Legible)
    (h₁ : ∀ segment ∈ segments₁, ∀ a ∈ segment.2,
      ∀ s : TypeSignature, s.Legible → a.SeparatesFrom s) :
    (path segments₁).SeparatesFrom (path segments₂) := by
  intro ws₁ ws₂ r₁ r₂ hws₁ hws₂ hr₁ hr₂ heq
  -- with a dot in front, the text of a path is that of all its segments after dots
  have hdotted : ∀ segments : List (Text × List TypeSignature), segments ≠ [] →
      '.' :: (path segments).text = dottedTexts segments := by
    intro segments hne
    obtain ⟨segment, rest, rfl⟩ := List.exists_cons_of_ne_nil hne
    rw [text_path_cons]
    simp [dottedTexts, segmentTexts]
  cases hlegible₁ with
  | path hne₁ hnames₁ hargs₁ =>
    cases hlegible₂ with
    | path hne₂ hnames₂ hargs₂ =>
      have hdots := congrArg ('.' :: ·) heq
      simp only [← List.cons_append, hdotted segments₁ hne₁, hdotted segments₂ hne₂] at hdots
      obtain ⟨rfl, htail⟩ := dottedTexts_append_inj hnames₁ hnames₂ h₁ hargs₂
        (endsPath_wrapperTexts ws₁ hr₁) (endsPath_wrapperTexts ws₂ hr₂) hdots
      obtain ⟨rfl, rfl⟩ := wrapperTexts_append_inj hws₁ hws₂ hr₁ hr₂ htail
      exact ⟨rfl, rfl⟩

/-- A reference is told from a path: only the first begins with a backtick. -/
theorem separatesFrom_reference_path (target : GenericReference)
    {segments : List (Text × List TypeSignature)} (hlegible : (path segments).Legible) :
    (reference target).SeparatesFrom (path segments) := by
  intro ws₁ ws₂ r₁ r₂ hws₁ hws₂ hr₁ hr₂ heq
  cases hlegible with
  | path hne hnames hargs =>
    obtain ⟨⟨name, l⟩, rest, rfl⟩ := List.exists_cons_of_ne_nil hne
    have hname : IsSegmentName name := hnames (name, l) List.mem_cons_self
    obtain ⟨c, name, rfl⟩ := List.exists_cons_of_ne_nil hname.ne_nil
    have hc : c ≠ '\x60' := by simpa using hname.head_ne
    rw [text_path_cons] at heq
    obtain ⟨level, position⟩ := target
    cases level <;>
      simp only [text, GenericReference.text, List.cons_append, List.cons.injEq] at heq <;>
      exact absurd heq.1.symm hc

/-- **Legible signatures are told apart by their texts**, whatever wrappers and stops stand behind
them.

**Proof sketch.** By induction on the first signature and, where it is no wrapper, on the second. A
wrapper moves behind its element. Of two references the backticks and digits agree, of two paths the
segments one after the other, and a reference and a path differ in their first characters. -/
theorem separates {s₁ s₂ : TypeSignature} (h₁ : s₁.Legible) (h₂ : s₂.Legible) :
    s₁.SeparatesFrom s₂ := by
  induction h₁ generalizing s₂ with
  | reference target₁ =>
    induction h₂ with
    | reference target₂ => exact separatesFrom_reference target₁ target₂
    | path hne hnames hargs => exact separatesFrom_reference_path target₁ (.path hne hnames hargs)
    | wrapped hrank _ ih => exact (ih.symm.wrapped hrank).symm
  | path hne₁ hnames₁ hargs₁ ih₁ =>
    have hlegible₁ := Legible.path hne₁ hnames₁ hargs₁
    induction h₂ with
    | reference target₂ => exact (separatesFrom_reference_path target₂ hlegible₁).symm
    | path hne hnames hargs =>
      exact separatesFrom_path hlegible₁ (.path hne hnames hargs)
        fun segment hs a ha s hl => ih₁ segment hs a ha hl
    | wrapped hrank _ ih => exact (ih.symm.wrapped hrank).symm
  | wrapped hrank _ ih => exact (ih h₂).wrapped hrank

/-- **Legible signatures are determined by their texts.** -/
theorem text_injective {s₁ s₂ : TypeSignature} (h₁ : s₁.Legible) (h₂ : s₂.Legible)
    (h : s₁.text = s₂.text) : s₁ = s₂ := by
  have hstops : Stops [] := fun c hc => by simp at hc
  exact ((separates h₁ h₂).eq hstops hstops (congrArg (· ++ []) h)).1

/-! ### Characters of a written form -/

/-- The written forms of some signatures, one by one. -/
theorem texts_eq_map (signatures : List TypeSignature) :
    texts signatures = signatures.map text := by
  induction signatures with
  | nil => rfl
  | cons signature rest ih => rw [texts, ih, List.map_cons]

/-- The written forms of some segments, one by one. -/
theorem segmentTexts_eq_map (segments : List (Text × List TypeSignature)) :
    segmentTexts segments = segments.map fun segment => segment.1 ++ braces (texts segment.2) := by
  induction segments with
  | nil => rfl
  | cons segment rest ih =>
    obtain ⟨name, arguments⟩ := segment
    rw [segmentTexts, ih, List.map_cons]

/-- A character of a wrapper is a bracket, a dimension, an asterisk or an at sign. -/
theorem mem_wrapper_text {wrapper : Wrapper} {c : Char} (h : c ∈ wrapper.text) :
    c ∈ ['[', ']', ',', '0', ':', '*', '@'] := by
  cases wrapper with
  | array rank =>
    simp only [Wrapper.text, dimensions] at h
    split at h
    · exact (show ∀ c ∈ "[]".toList, c ∈ ['[', ']', ',', '0', ':', '*', '@'] by simp) c h
    · simp only [List.cons_append, List.mem_cons, List.mem_append, List.not_mem_nil,
        or_false] at h
      rcases h with rfl | h | rfl
      · decide
      · rcases Text.mem_of_mem_intercalate h with h | ⟨text, htext, hin⟩
        · rw [List.mem_singleton.mp h]; decide
        · rw [(List.mem_replicate.mp htext).2] at hin
          exact (show ∀ c ∈ "0:".toList, c ∈ ['[', ']', ',', '0', ':', '*', '@'] by simp) c hin
      · decide
  | pointer => rw [List.mem_singleton.mp h]; decide
  | byRef => rw [List.mem_singleton.mp h]; decide

/-- A character of what stands in braces is a brace, a comma or a character of what is listed. -/
theorem mem_braces {listed : List Text} {c : Char} (h : c ∈ braces listed) :
    c ∈ ['\x7b', '\x7d', ','] ∨ ∃ text ∈ listed, c ∈ text := by
  cases listed with
  | nil => exact absurd h List.not_mem_nil
  | cons first rest =>
    simp only [braces, List.cons_append, List.mem_cons, List.mem_append, List.not_mem_nil,
      or_false] at h
    rcases h with rfl | h | rfl
    · exact .inl (by decide)
    · rcases Text.mem_of_mem_intercalate h with h | h
      · exact .inl (by rw [List.mem_singleton.mp h]; decide)
      · exact .inr h
    · exact .inl (by decide)

/-- The written form of a legible signature holds neither a parenthesis nor a tilde. -/
theorem Legible.not_mem_of_mem_text {signature : TypeSignature} (h : signature.Legible) :
    ∀ c ∈ signature.text, c ∉ ['(', ')', '~'] := by
  have hdigit : ∀ c : Char, c.isDigit = true → c ∉ ['(', ')', '~'] := by
    intro c hc
    simp only [List.mem_cons, List.not_mem_nil, or_false]
    rintro (rfl | rfl | rfl) <;> exact absurd hc (by decide)
  have hname : ∀ c : Char, isDelimiter c = false → c ∉ ['(', ')', '~'] := by
    intro c hc
    simp only [List.mem_cons, List.not_mem_nil, or_false]
    rintro (rfl | rfl | rfl) <;> exact absurd hc (by decide)
  induction h with
  | reference target =>
    obtain ⟨level, position⟩ := target
    intro c hc
    have hcases : c = '\x60' ∨ c ∈ Text.ofNat position := by
      cases level <;> simpa [text, GenericReference.text] using hc
    rcases hcases with rfl | hc
    · decide
    · exact hdigit c (Text.isDigit_of_mem_ofNat hc)
  | @path segments _ hnames _ ih =>
    intro c hc
    rw [text, segmentTexts_eq_map] at hc
    rcases Text.mem_of_mem_intercalate hc with hdot | ⟨segmentText, hsegment, hin⟩
    · rw [List.mem_singleton.mp hdot]; decide
    · obtain ⟨segment, hmem, rfl⟩ := List.mem_map.mp hsegment
      rcases List.mem_append.mp hin with hin | hin
      · exact hname c ((hnames segment hmem).not_delimiter c hin)
      · rcases mem_braces hin with hbrace | ⟨argumentText, hargument, hin⟩
        · exact (show ∀ d ∈ ['\x7b', '\x7d', ','], d ∉ ['(', ')', '~'] by simp) c hbrace
        · rw [texts_eq_map] at hargument
          obtain ⟨argument, hlisted, rfl⟩ := List.mem_map.mp hargument
          exact ih segment hmem argument hlisted c hin
  | wrapped _ _ ih =>
    intro c hc
    rcases List.mem_append.mp hc with hc | hc
    · exact ih c hc
    · exact (show ∀ d ∈ ['[', ']', ',', '0', ':', '*', '@'], d ∉ ['(', ')', '~'] by simp) c
        (mem_wrapper_text hc)

end TypeSignature

end SymbolDocs
