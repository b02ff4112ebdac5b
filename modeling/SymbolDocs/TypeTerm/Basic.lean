import SymbolDocs.Text.Basic
set_option autoImplicit false

/-!
# Type terms

A type term describes a type of a compiled unit by its structure: a named type with the type that
encloses it, its own generic parameters and its generic arguments; a reference to a generic
parameter; or an array, a pointer or a by-reference type over an element.

## Main definitions

* `TypeTerm` — the terms.
* `TypeTerm.nesting` — the enclosing types from the outermost inwards, and the type itself.
* `TypeTerm.plain`, `TypeTerm.parameter`, `TypeTerm.nestedIn`, `TypeTerm.arrayOf`, … — the terms
  built step by step.
* `TypeTerm.same` — equality of terms, decided by recursion.

## Main results

* `TypeTerm.rec_on_parts` — induction over a term, its enclosing type and its arguments.
* `TypeTerm.same_iff` — the decision is correct.

## Design

Every term carries a header, the name, namespace and interface mark that a symbol source gives for
it. The header of an array, pointer or by-reference type is for display; what the type is, its
element says.
-/

namespace SymbolDocs

/-- What a symbol source says of a type apart from its structure. -/
structure TypeHeader where
  /-- The simple name, with the arity mark of a generic type. -/
  name : Text
  /-- The namespace; empty for none. -/
  space : Text := []
  /-- Whether the type is an interface. -/
  isInterface : Bool := false
  deriving DecidableEq, Repr

/-- The structural description of a type. -/
inductive TypeTerm where
  /-- A named type, perhaps nested, perhaps generic. `parameters` are the generic parameters the
  type declares itself, `arguments` the arguments of a constructed type. -/
  | named (header : TypeHeader) (declaring : Option TypeTerm) (parameters : List Text)
      (arguments : List TypeTerm)
  /-- A reference to a generic parameter, by the name in the header. -/
  | genericParameter (header : TypeHeader)
  /-- An array of some rank. -/
  | array (header : TypeHeader) (element : TypeTerm) (rank : UInt32)
  /-- A pointer. -/
  | pointer (header : TypeHeader) (element : TypeTerm)
  /-- A by-reference type. -/
  | byRef (header : TypeHeader) (element : TypeTerm)
  deriving Repr

namespace TypeTerm

/-! ### Parts of a term -/

/-- The header of a term. -/
def header : TypeTerm → TypeHeader
  | .named header _ _ _ => header
  | .genericParameter header => header
  | .array header _ _ => header
  | .pointer header _ => header
  | .byRef header _ => header

/-- The same term under another header. -/
def withHeader (header : TypeHeader) : TypeTerm → TypeTerm
  | .named _ declaring parameters arguments => .named header declaring parameters arguments
  | .genericParameter _ => .genericParameter header
  | .array _ element rank => .array header element rank
  | .pointer _ element => .pointer header element
  | .byRef _ element => .byRef header element

/-- The simple name of a type. -/
def name (type : TypeTerm) : Text :=
  type.header.name

/-- The namespace a type carries. -/
def space (type : TypeTerm) : Text :=
  type.header.space

/-- Whether a type is marked as an interface. -/
def isInterface (type : TypeTerm) : Bool :=
  type.header.isInterface

/-- Whether a term refers to a generic parameter. -/
def isGenericParameter : TypeTerm → Bool
  | .genericParameter _ => true
  | _ => false

/-- The element of an array, a pointer or a by-reference type. -/
def element? : TypeTerm → Option TypeTerm
  | .array _ element _ => some element
  | .pointer _ element => some element
  | .byRef _ element => some element
  | _ => none

/-- The type that encloses a named type. -/
def declaring? : TypeTerm → Option TypeTerm
  | .named _ declaring _ _ => declaring
  | _ => none

/-- The generic parameters a type declares itself. -/
def parameters : TypeTerm → List Text
  | .named _ _ parameters _ => parameters
  | _ => []

/-- The generic arguments of a constructed type. -/
def arguments : TypeTerm → List TypeTerm
  | .named _ _ _ arguments => arguments
  | _ => []

/-- Whether a type has generic parameters or arguments of its own. -/
def isGeneric (type : TypeTerm) : Bool :=
  !type.parameters.isEmpty || !type.arguments.isEmpty

/-- The enclosing types from the outermost inwards, followed by the type itself. -/
def nesting : TypeTerm → List TypeTerm
  | .named header (some outer) parameters arguments =>
    nesting outer ++ [.named header (some outer) parameters arguments]
  | type => [type]

/-- The outermost type of the nesting: the first of `nesting`. -/
def outermost : TypeTerm → TypeTerm
  | .named _ (some outer) _ _ => outermost outer
  | type => type

/-! ### Building terms -/

/-- A named type that is neither nested nor generic. -/
def plain (space name : Text) : TypeTerm :=
  .named { name, space } none [] []

/-- A reference to the generic parameter of a given name. -/
def parameter (name : Text) : TypeTerm :=
  .genericParameter { name }

/-- A type nested in `outer`: it takes over the namespace, and a named type also its enclosing
type. -/
def nestedIn (type outer : TypeTerm) : TypeTerm :=
  let header := { type.header with space := outer.space }
  match type with
  | .named _ _ parameters arguments => .named header (some outer) parameters arguments
  | type => type.withHeader header

/-- A named type with its own generic parameters set; any other term as it is. -/
def withParameters (names : List Text) : TypeTerm → TypeTerm
  | .named header declaring _ arguments => .named header declaring names arguments
  | type => type

/-- A named type with its generic arguments set; any other term as it is. -/
def withArguments (arguments : List TypeTerm) : TypeTerm → TypeTerm
  | .named header declaring parameters _ => .named header declaring parameters arguments
  | type => type

/-- A type marked as an interface. -/
def asInterface (type : TypeTerm) : TypeTerm :=
  type.withHeader { type.header with isInterface := true }

/-- The brackets of an array type: a comma between two dimensions. -/
def arrayBrackets (rank : UInt32) : Text :=
  '[' :: List.replicate (rank.toNat - 1) ',' ++ [']']

/-- The header of a type over an element: the name with a suffix in the namespace of the
element. -/
def wrappedHeader (type : TypeTerm) (suffix : Text) : TypeHeader :=
  { name := type.name ++ suffix, space := type.space }

/-- The array type of some rank over an element. -/
def arrayOf (rank : UInt32) (type : TypeTerm) : TypeTerm :=
  .array (type.wrappedHeader (arrayBrackets rank)) type rank

/-- The pointer type to an element. -/
def pointerTo (type : TypeTerm) : TypeTerm :=
  .pointer (type.wrappedHeader ['*']) type

/-- The by-reference type of an element. -/
def refTo (type : TypeTerm) : TypeTerm :=
  .byRef (type.wrappedHeader ['&']) type

/-! ### Induction and equality -/

mutual

/-- Induction over a term: a property holds of every term when it holds of a named type whose
enclosing type and arguments have it, of a generic parameter, and of every type over an element
that has it. -/
theorem rec_on_parts {P : TypeTerm → Prop}
    (named : ∀ header declaring parameters arguments, (∀ t ∈ declaring, P t) →
      (∀ t ∈ arguments, P t) → P (.named header declaring parameters arguments))
    (genericParameter : ∀ header, P (.genericParameter header))
    (array : ∀ header element rank, P element → P (.array header element rank))
    (pointer : ∀ header element, P element → P (.pointer header element))
    (byRef : ∀ header element, P element → P (.byRef header element)) : ∀ type, P type
  | .named header declaring parameters arguments =>
    named header declaring parameters arguments
      (rec_on_option named genericParameter array pointer byRef declaring)
      (rec_on_list named genericParameter array pointer byRef arguments)
  | .genericParameter header => genericParameter header
  | .array header element rank =>
    array header element rank (rec_on_parts named genericParameter array pointer byRef element)
  | .pointer header element =>
    pointer header element (rec_on_parts named genericParameter array pointer byRef element)
  | .byRef header element =>
    byRef header element (rec_on_parts named genericParameter array pointer byRef element)

/-- The property holds of an enclosing type. -/
theorem rec_on_option {P : TypeTerm → Prop}
    (named : ∀ header declaring parameters arguments, (∀ t ∈ declaring, P t) →
      (∀ t ∈ arguments, P t) → P (.named header declaring parameters arguments))
    (genericParameter : ∀ header, P (.genericParameter header))
    (array : ∀ header element rank, P element → P (.array header element rank))
    (pointer : ∀ header element, P element → P (.pointer header element))
    (byRef : ∀ header element, P element → P (.byRef header element)) :
    ∀ declaring : Option TypeTerm, ∀ t ∈ declaring, P t
  | none => by simp
  | some outer => by
    have := rec_on_parts named genericParameter array pointer byRef outer
    simpa using this

/-- The property holds of every argument. -/
theorem rec_on_list {P : TypeTerm → Prop}
    (named : ∀ header declaring parameters arguments, (∀ t ∈ declaring, P t) →
      (∀ t ∈ arguments, P t) → P (.named header declaring parameters arguments))
    (genericParameter : ∀ header, P (.genericParameter header))
    (array : ∀ header element rank, P element → P (.array header element rank))
    (pointer : ∀ header element, P element → P (.pointer header element))
    (byRef : ∀ header element, P element → P (.byRef header element)) :
    ∀ arguments : List TypeTerm, ∀ t ∈ arguments, P t
  | [] => by simp
  | type :: rest => by
    have first := rec_on_parts named genericParameter array pointer byRef type
    have others := rec_on_list named genericParameter array pointer byRef rest
    simpa using ⟨first, others⟩

end

mutual

/-- Whether two terms are equal. -/
def same : TypeTerm → TypeTerm → Bool
  | .named h₁ d₁ p₁ a₁, .named h₂ d₂ p₂ a₂ =>
    h₁ == h₂ && sameOption d₁ d₂ && p₁ == p₂ && sameList a₁ a₂
  | .genericParameter h₁, .genericParameter h₂ => h₁ == h₂
  | .array h₁ e₁ r₁, .array h₂ e₂ r₂ => h₁ == h₂ && same e₁ e₂ && r₁ == r₂
  | .pointer h₁ e₁, .pointer h₂ e₂ => h₁ == h₂ && same e₁ e₂
  | .byRef h₁ e₁, .byRef h₂ e₂ => h₁ == h₂ && same e₁ e₂
  | _, _ => false

/-- Whether two optional terms are equal. -/
def sameOption : Option TypeTerm → Option TypeTerm → Bool
  | none, none => true
  | some t₁, some t₂ => same t₁ t₂
  | _, _ => false

/-- Whether two lists of terms are equal. -/
def sameList : List TypeTerm → List TypeTerm → Bool
  | [], [] => true
  | t₁ :: rest₁, t₂ :: rest₂ => same t₁ t₂ && sameList rest₁ rest₂
  | _, _ => false

end

/-- Equality of optional terms follows from equality of the terms in the first. -/
theorem sameOption_iff {d₁ d₂ : Option TypeTerm}
    (h : ∀ t ∈ d₁, ∀ u, same t u = true ↔ t = u) : sameOption d₁ d₂ = true ↔ d₁ = d₂ := by
  cases d₁ <;> cases d₂ <;> simp_all [sameOption]

/-- Equality of lists of terms follows from equality of the terms in the first. -/
theorem sameList_iff {l₁ l₂ : List TypeTerm}
    (h : ∀ t ∈ l₁, ∀ u, same t u = true ↔ t = u) : sameList l₁ l₂ = true ↔ l₁ = l₂ := by
  induction l₁ generalizing l₂ with
  | nil => cases l₂ <;> simp [sameList]
  | cons t rest ih =>
    cases l₂ with
    | nil => simp [sameList]
    | cons u rest₂ =>
      have hrest := @ih rest₂ fun v hv => h v (List.mem_cons_of_mem t hv)
      simp [sameList, h t List.mem_cons_self, hrest]

/-- **The decision is correct**: two terms are the same exactly when they are equal. -/
theorem same_iff (t u : TypeTerm) : same t u = true ↔ t = u := by
  induction t using rec_on_parts generalizing u with
  | named header declaring parameters arguments hd ha =>
    cases u <;> simp [same, sameOption_iff hd, sameList_iff ha, and_assoc]
  | genericParameter header => cases u <;> simp [same]
  | array header element rank ih => cases u <;> simp [same, ih, and_assoc]
  | pointer header element ih => cases u <;> simp [same, ih]
  | byRef header element ih => cases u <;> simp [same, ih]

instance : DecidableEq TypeTerm := fun t u =>
  decidable_of_iff (same t u = true) (same_iff t u)

end TypeTerm

end SymbolDocs
