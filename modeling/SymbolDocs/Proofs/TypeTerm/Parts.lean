import SymbolDocs.TypeTerm.Basic
set_option autoImplicit false

/-!
# The parts of a type term

What is said of all names in a type is said of the terms that occur in it at any depth: the types
that enclose it, its arguments, its element, and all that occurs in these.

## Main definitions

* `TypeTerm.parts` — the terms that occur in a term, the term itself among them.
* `TypeTerm.constituents` — the terms that a term is made of directly.
* `TypeTerm.core` — what an array, a pointer or a by-reference type is made of in the end.

## Main results

* `TypeTerm.mem_parts_of_outer`, `TypeTerm.mem_parts_of_argument` — what occurs in a named type.
* `TypeTerm.forall_parts` — what passes from a term to its constituents holds of all its parts.
-/

namespace SymbolDocs

namespace TypeTerm

/-! ### Occurrences -/

mutual

/-- The terms that occur in a term at any depth, the term itself among them. -/
def parts : TypeTerm → List TypeTerm
  | .named header declaring parameters arguments =>
    .named header declaring parameters arguments ::
      (partsOfOuter declaring ++ partsOfAll arguments)
  | .genericParameter header => [.genericParameter header]
  | .array header element rank => .array header element rank :: parts element
  | .pointer header element => .pointer header element :: parts element
  | .byRef header element => .byRef header element :: parts element

/-- The terms that occur in an enclosing type. -/
def partsOfOuter : Option TypeTerm → List TypeTerm
  | some outer => parts outer
  | none => []

/-- The terms that occur in some terms. -/
def partsOfAll : List TypeTerm → List TypeTerm
  | [] => []
  | type :: rest => parts type ++ partsOfAll rest

end

/-- A term occurs in itself. -/
theorem mem_parts_self (type : TypeTerm) : type ∈ type.parts := by
  cases type <;> simp [parts]

/-- What occurs in one of some terms occurs in them. -/
theorem mem_partsOfAll {types : List TypeTerm} {type t : TypeTerm} (h : type ∈ types)
    (ht : t ∈ type.parts) : t ∈ partsOfAll types := by
  induction types with
  | nil => exact absurd h List.not_mem_nil
  | cons first rest ih =>
    rw [partsOfAll, List.mem_append]
    rcases List.mem_cons.mp h with rfl | h
    · exact .inl ht
    · exact .inr (ih h)

/-- What occurs in the enclosing type occurs in the type. -/
theorem mem_parts_of_outer {header : TypeHeader} {declaring : Option TypeTerm}
    {parameters : List Text} {arguments : List TypeTerm} {outer t : TypeTerm}
    (h : outer ∈ declaring) (ht : t ∈ outer.parts) :
    t ∈ parts (.named header declaring parameters arguments) := by
  obtain rfl : declaring = some outer := h
  rw [parts, List.mem_cons, List.mem_append]
  exact .inr (.inl ht)

/-- What occurs in an argument occurs in the type. -/
theorem mem_parts_of_argument {header : TypeHeader} {declaring : Option TypeTerm}
    {parameters : List Text} {arguments : List TypeTerm} {argument t : TypeTerm}
    (h : argument ∈ arguments) (ht : t ∈ argument.parts) :
    t ∈ parts (.named header declaring parameters arguments) := by
  rw [parts, List.mem_cons, List.mem_append]
  exact .inr (.inr (mem_partsOfAll h ht))

/-! ### Constituents -/

/-- The terms that a term is made of directly: its enclosing type and its arguments, or its
element. -/
def constituents : TypeTerm → List TypeTerm
  | .named _ declaring _ arguments => declaring.toList ++ arguments
  | .genericParameter _ => []
  | .array _ element _ => [element]
  | .pointer _ element => [element]
  | .byRef _ element => [element]

/-- What occurs in some terms occurs in one of them. -/
theorem exists_of_mem_partsOfAll {types : List TypeTerm} {t : TypeTerm} (h : t ∈ partsOfAll types) :
    ∃ type ∈ types, t ∈ type.parts := by
  induction types with
  | nil => exact absurd h List.not_mem_nil
  | cons first rest ih =>
    rw [partsOfAll, List.mem_append] at h
    obtain h | h := h
    · exact ⟨first, List.mem_cons_self, h⟩
    · obtain ⟨type, htype, ht⟩ := ih h
      exact ⟨type, List.mem_cons_of_mem first htype, ht⟩

/-- What occurs in a term is the term itself or occurs in a constituent. -/
theorem eq_or_exists_constituent {type t : TypeTerm} (h : t ∈ type.parts) :
    t = type ∨ ∃ constituent ∈ type.constituents, t ∈ constituent.parts := by
  cases type with
  | named header declaring parameters arguments =>
    rw [parts, List.mem_cons, List.mem_append] at h
    obtain h | h | h := h
    · exact .inl h
    · cases declaring with
      | none => exact absurd h List.not_mem_nil
      | some outer => exact .inr ⟨outer, by simp [constituents], h⟩
    · obtain ⟨argument, hargument, ht⟩ := exists_of_mem_partsOfAll h
      exact .inr ⟨argument, by simp [constituents, hargument], ht⟩
  | genericParameter header => simpa [parts, constituents] using h
  | array header element rank => simpa [parts, constituents] using h
  | pointer header element => simpa [parts, constituents] using h
  | byRef header element => simpa [parts, constituents] using h

/-- **What passes from a term to its constituents holds of all that occurs in it.** -/
theorem forall_parts {P : TypeTerm → Prop}
    (hP : ∀ type, P type → ∀ constituent ∈ type.constituents, P constituent) {type : TypeTerm}
    (h : P type) : ∀ t ∈ type.parts, P t := by
  intro t ht
  have hbelow : ∀ constituent ∈ type.constituents, P constituent := hP type h
  induction type using rec_on_parts with
  | named header declaring parameters arguments houter hargument =>
    obtain rfl | ⟨constituent, hmem, ht⟩ := eq_or_exists_constituent ht
    · exact h
    · have hconstituent := hbelow constituent hmem
      simp only [constituents, List.mem_append, Option.mem_toList] at hmem
      obtain hmem | hmem := hmem
      · exact houter constituent hmem hconstituent ht (hP constituent hconstituent)
      · exact hargument constituent hmem hconstituent ht (hP constituent hconstituent)
  | genericParameter header =>
    obtain rfl : t = .genericParameter header := by simpa [parts] using ht
    exact h
  | array header element rank ih | pointer header element ih | byRef header element ih =>
    have helement : P element := hbelow element List.mem_cons_self
    rw [parts, List.mem_cons] at ht
    obtain rfl | ht := ht
    · exact h
    · exact ih helement ht (hP element helement)

/-! ### Cores -/

/-- The element of the element, and so on, of an array, a pointer or a by-reference type; any other
type itself. -/
def core : TypeTerm → TypeTerm
  | .array _ element _ => core element
  | .pointer _ element => core element
  | .byRef _ element => core element
  | type => type

end TypeTerm

end SymbolDocs
