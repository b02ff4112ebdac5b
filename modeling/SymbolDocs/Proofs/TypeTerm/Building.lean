import SymbolDocs.Proofs.TypeTerm.Parts
set_option autoImplicit false

/-!
# Terms built step by step

A type term that is built step by step keeps its headers consistent. A type carries the namespace of
the type that encloses it, and an array, a pointer or a by-reference type has the name of its
element with a suffix. It has the namespace of its element as well, until it is nested itself:
nesting sets the namespace of any type, but gives only a named one an enclosing type.

## Main definitions

* `TypeTerm.BuiltWhere`, `TypeTerm.Built` — the terms built step by step.
* `TypeTerm.wrapped?` — the element of an array, a pointer or a by-reference type, with its suffix.
* `TypeTerm.Mirrors` — a term has the namespace and the name that its element gives it.

## Main results

* `TypeTerm.BuiltWhere.of_mem_parts` — what occurs in a built term is built.
* `TypeTerm.space_along_nesting` — one namespace along every nesting.
* `TypeTerm.mirrors_of_built` — when a built term mirrors its elements.

## Design

Since the parts of a built term are built, what is said of all parts is proved of the term alone.
-/

namespace SymbolDocs

namespace TypeTerm

/-- The terms that are built step by step, where one may be nested in another as far as `mayNest`
allows. -/
inductive BuiltWhere (mayNest : TypeTerm → TypeTerm → Prop) : TypeTerm → Prop
  /-- A named type. -/
  | plain (space name : Text) : BuiltWhere mayNest (plain space name)
  /-- A generic parameter. -/
  | parameter (name : Text) : BuiltWhere mayNest (parameter name)
  /-- A term nested in another. -/
  | nestedIn {type outer : TypeTerm} (h : BuiltWhere mayNest type)
      (houter : BuiltWhere mayNest outer) (hmay : mayNest type outer) :
      BuiltWhere mayNest (type.nestedIn outer)
  /-- A term with its generic parameters set. -/
  | withParameters {type : TypeTerm} (names : List Text) (h : BuiltWhere mayNest type) :
      BuiltWhere mayNest (type.withParameters names)
  /-- A term with its generic arguments set. -/
  | withArguments {type : TypeTerm} {arguments : List TypeTerm} (h : BuiltWhere mayNest type)
      (harguments : ∀ argument ∈ arguments, BuiltWhere mayNest argument) :
      BuiltWhere mayNest (type.withArguments arguments)
  /-- A term marked as an interface. -/
  | asInterface {type : TypeTerm} (h : BuiltWhere mayNest type) :
      BuiltWhere mayNest type.asInterface
  /-- An array. -/
  | arrayOf {type : TypeTerm} (rank : UInt32) (h : BuiltWhere mayNest type) :
      BuiltWhere mayNest (type.arrayOf rank)
  /-- A pointer. -/
  | pointerTo {type : TypeTerm} (h : BuiltWhere mayNest type) : BuiltWhere mayNest type.pointerTo
  /-- A by-reference type. -/
  | refTo {type : TypeTerm} (h : BuiltWhere mayNest type) : BuiltWhere mayNest type.refTo

/-- The terms that are built step by step, any of them nested in any other. -/
abbrev Built : TypeTerm → Prop :=
  BuiltWhere fun _ _ => True

/-- The element of an array, a pointer or a by-reference type, and the suffix that its name puts
behind that of the element: brackets with a comma between two dimensions, a star or an
ampersand. -/
def wrapped? : TypeTerm → Option (TypeTerm × Text)
  | .array _ element rank =>
    some (element, if rank ≤ 1 then "[]".toList
      else '[' :: List.replicate (rank.toNat - 1) ',' ++ [']'])
  | .pointer _ element => some (element, ['*'])
  | .byRef _ element => some (element, ['&'])
  | _ => none

/-- A term has the namespace of its element and the name of its element with the suffix, if it has
an element. -/
def Mirrors (type : TypeTerm) : Prop :=
  ∀ element suffix, type.wrapped? = some (element, suffix) →
    type.space = element.space ∧ type.name = element.name ++ suffix

/-- The namespace that a term takes over in being nested is that of its element, if it has one. -/
def FitsElement (type outer : TypeTerm) : Prop :=
  ∀ element suffix, type.wrapped? = some (element, suffix) → outer.space = element.space

/-! ### What a step changes -/

section Steps

variable (type outer : TypeTerm) (names : List Text) (arguments : List TypeTerm)

/-- Nesting a type changes no more of its header than the namespace. -/
@[simp] theorem header_nestedIn :
    (type.nestedIn outer).header = { type.header with space := outer.space } := by
  cases type <;> rfl

/-- Declaring generic parameters leaves the header. -/
@[simp] theorem header_withParameters : (type.withParameters names).header = type.header := by
  cases type <;> rfl

/-- Giving generic arguments leaves the header. -/
@[simp] theorem header_withArguments : (type.withArguments arguments).header = type.header := by
  cases type <;> rfl

/-- Marking an interface changes no more of the header than that. -/
@[simp] theorem header_asInterface :
    type.asInterface.header = { type.header with isInterface := true } := by
  cases type <;> rfl

/-- Nesting a type leaves what it wraps. -/
@[simp] theorem wrapped?_nestedIn : (type.nestedIn outer).wrapped? = type.wrapped? := by
  cases type <;> rfl

/-- Declaring generic parameters leaves what a type wraps. -/
@[simp] theorem wrapped?_withParameters :
    (type.withParameters names).wrapped? = type.wrapped? := by
  cases type <;> rfl

/-- Giving generic arguments leaves what a type wraps. -/
@[simp] theorem wrapped?_withArguments :
    (type.withArguments arguments).wrapped? = type.wrapped? := by
  cases type <;> rfl

/-- Marking an interface leaves what a type wraps. -/
@[simp] theorem wrapped?_asInterface : type.asInterface.wrapped? = type.wrapped? := by
  cases type <;> rfl

/-- Declaring generic parameters leaves the declaring type. -/
@[simp] theorem declaring?_withParameters :
    (type.withParameters names).declaring? = type.declaring? := by
  cases type <;> rfl

/-- Giving generic arguments leaves the declaring type. -/
@[simp] theorem declaring?_withArguments :
    (type.withArguments arguments).declaring? = type.declaring? := by
  cases type <;> rfl

/-- Marking an interface leaves the declaring type. -/
@[simp] theorem declaring?_asInterface : type.asInterface.declaring? = type.declaring? := by
  cases type <;> rfl

/-- Only a named type gets an enclosing type. -/
theorem declaring?_nestedIn {enclosing : TypeTerm}
    (h : (type.nestedIn outer).declaring? = some enclosing) : enclosing = outer := by
  cases type with
  | named header declaring parameters arguments => exact (Option.some.inj h).symm
  | _ => exact absurd h nofun

/-- The brackets of an array as its rank gives them. -/
theorem arrayBrackets_eq (rank : UInt32) :
    arrayBrackets rank = if rank ≤ 1 then "[]".toList
      else '[' :: List.replicate (rank.toNat - 1) ',' ++ [']'] := by
  split
  case isTrue h =>
    have hrank : rank.toNat - 1 = 0 := Nat.sub_eq_zero_of_le (UInt32.le_iff_toNat_le.mp h)
    rw [arrayBrackets, hrank]
    rfl
  case isFalse => rfl

end Steps

/-! ### Built terms -/

section Built

variable {mayNest : TypeTerm → TypeTerm → Prop} {type : TypeTerm}

/-- What a built term is made of is built. -/
theorem BuiltWhere.constituents (h : BuiltWhere mayNest type) :
    ∀ constituent ∈ type.constituents, BuiltWhere mayNest constituent := by
  induction h with
  | plain | parameter => exact List.forall_mem_nil _
  | @nestedIn type outer _ houter _ ih _ =>
    cases type with
    | named header declaring parameters arguments =>
      exact List.forall_mem_cons.mpr
        ⟨houter, fun argument hargument => ih argument (List.mem_append_right _ hargument)⟩
    | _ => exact ih
  | @withParameters type names _ ih => cases type <;> exact ih
  | @withArguments type arguments _ harguments ih _ =>
    cases type with
    | named header declaring parameters old =>
      intro constituent hconstituent
      obtain hmem | hmem := List.mem_append.mp hconstituent
      · exact ih constituent (List.mem_append_left _ hmem)
      · exact harguments constituent hmem
    | _ => exact ih
  | @asInterface type _ ih => cases type <;> exact ih
  | arrayOf _ h | pointerTo h | refTo h => exact List.forall_mem_singleton.mpr h

/-- **What occurs in a built term is built.** -/
theorem BuiltWhere.of_mem_parts (h : BuiltWhere mayNest type) :
    ∀ t ∈ type.parts, BuiltWhere mayNest t :=
  forall_parts (fun _ => BuiltWhere.constituents) h

/-- A built type carries the namespace of the type that encloses it. -/
theorem BuiltWhere.space_declaring (h : BuiltWhere mayNest type) :
    ∀ outer, type.declaring? = some outer → type.space = outer.space := by
  induction h with
  | nestedIn =>
    intro enclosing henclosing
    rw [declaring?_nestedIn _ _ henclosing, space, header_nestedIn]
  | withParameters _ _ ih | withArguments _ _ ih | asInterface _ ih => simpa [space] using ih
  | _ => exact nofun

/-- A built type carries the namespace of every type along its nesting.

**Proof sketch.** By induction on the type. The types along the nesting but the type itself are
those along the nesting of the enclosing one, which is built. -/
theorem BuiltWhere.space_nesting (h : BuiltWhere mayNest type) :
    ∀ t ∈ type.nesting, t.space = type.space := by
  induction type using rec_on_parts with
  | named header declaring parameters arguments ihouter _ =>
    cases declaring with
    | none => simp [nesting]
    | some outer =>
      intro t ht
      rw [nesting, List.mem_append, List.mem_singleton] at ht
      obtain ht | rfl := ht
      · have houter : BuiltWhere mayNest outer := h.constituents outer List.mem_cons_self
        rw [ihouter outer rfl houter t ht, h.space_declaring outer rfl]
      · rfl
  | _ => simp [nesting]

/-- **One namespace along every nesting.** In a type built step by step, whatever is nested in
whatever and however often, all types along the nesting of any type that occurs in it carry the
namespace of the outermost one. -/
theorem space_along_nesting (h : Built type) :
    ∀ t ∈ type.parts, ∃ outermost inner, t.nesting = outermost :: inner ∧
      ∀ u ∈ inner, u.space = outermost.space := by
  intro t ht
  have hspace := (h.of_mem_parts t ht).space_nesting
  cases hnesting : t.nesting with
  | nil =>
    cases t with
    | named header declaring parameters arguments => cases declaring <;> simp [nesting] at hnesting
    | _ => exact absurd hnesting nofun
  | cons outermost inner =>
    rw [hnesting, List.forall_mem_cons] at hspace
    exact ⟨outermost, inner, rfl, fun u hu => (hspace.2 u hu).trans hspace.1.symm⟩

/-- A type that is nested in another, under an array and after it has been nested elsewhere. -/
def deepType : TypeTerm :=
  let outer := (plain "Sample".toList "Outer`1".toList).withArguments
    [(plain "System".toList "Int32".toList).pointerTo]
  let inner := (plain "Odd".toList "Inner".toList).nestedIn (plain "First".toList "Home".toList)
  ((plain [] "Deep".toList).nestedIn (inner.nestedIn (outer.arrayOf 2))).asInterface

/-- The array and both types in it carry the namespace of the array. -/
theorem space_along_nesting_deepType :
    Built deepType ∧
      deepType.nesting.map name = ["Outer`1[,]".toList, "Inner".toList, "Deep".toList] ∧
      ∀ t ∈ deepType.parts, ∃ outermost inner, t.nesting = outermost :: inner ∧
        ∀ u ∈ inner, u.space = outermost.space := by
  have harguments : ∀ argument ∈ [(plain "System".toList "Int32".toList).pointerTo],
      Built argument := List.forall_mem_singleton.mpr (.pointerTo (.plain _ _))
  have hinner : Built ((plain "Odd".toList "Inner".toList).nestedIn
      (plain "First".toList "Home".toList)) := .nestedIn (.plain _ _) (.plain _ _) trivial
  have hdeep : Built deepType :=
    .asInterface (.nestedIn (.plain _ _)
      (.nestedIn hinner (.arrayOf 2 (.withArguments (.plain _ _) harguments)) trivial) trivial)
  exact ⟨hdeep, by decide, space_along_nesting hdeep⟩

/-! ### Elements -/

/-- A built array, pointer or by-reference type has the name of its element with the suffix. -/
theorem BuiltWhere.name_wrapped (h : BuiltWhere mayNest type) :
    ∀ element suffix, type.wrapped? = some (element, suffix) →
      type.name = element.name ++ suffix := by
  induction h with
  | plain | parameter => exact nofun
  | nestedIn _ _ _ ih | withParameters _ _ ih | withArguments _ _ ih | asInterface _ ih =>
    simpa [name] using ih
  | arrayOf rank =>
    rintro element suffix ⟨⟩
    exact congrArg _ (arrayBrackets_eq rank)
  | pointerTo | refTo =>
    rintro element suffix ⟨⟩
    rfl

/-- A nested term mirrors its element exactly when the namespace fits the element. -/
theorem mirrors_nestedIn_iff {outer : TypeTerm}
    (h : ∀ element suffix, type.wrapped? = some (element, suffix) →
      type.name = element.name ++ suffix) :
    (type.nestedIn outer).Mirrors ↔ type.FitsElement outer := by
  simp only [Mirrors, FitsElement, space, name, header_nestedIn, wrapped?_nestedIn]
  exact ⟨fun hboth element suffix hwrapped => (hboth element suffix hwrapped).1,
    fun hfits element suffix hwrapped => ⟨hfits element suffix hwrapped, h element suffix hwrapped⟩⟩

/-- A built term mirrors its element, where nothing has been nested but as fits its element. -/
theorem BuiltWhere.mirrors (h : BuiltWhere FitsElement type) : type.Mirrors := by
  induction h with
  | plain | parameter => exact nofun
  | nestedIn h _ hfits => exact (mirrors_nestedIn_iff h.name_wrapped).mpr hfits
  | withParameters _ _ ih | withArguments _ _ ih | asInterface _ ih =>
    simpa [Mirrors, space, name] using ih
  | arrayOf rank h =>
    rintro element suffix ⟨⟩
    exact ⟨rfl, congrArg _ (arrayBrackets_eq rank)⟩
  | pointerTo | refTo =>
    rintro element suffix ⟨⟩
    exact ⟨rfl, rfl⟩

/-- **When a built term mirrors its elements.** Every array, pointer and by-reference type that
occurs in it has the name of its element with the suffix of its shape, and also the namespace of its
element where nothing with an element has been nested, except in a type with the same namespace as
the element. When a built term is nested, it mirrors its element exactly then. -/
theorem mirrors_of_built (h : Built type) :
    (∀ t ∈ type.parts, ∀ element suffix,
      t.wrapped? = some (element, suffix) → t.name = element.name ++ suffix) ∧
    (BuiltWhere FitsElement type → ∀ t ∈ type.parts, t.Mirrors) ∧
    ∀ outer, (type.nestedIn outer).Mirrors ↔ type.FitsElement outer :=
  ⟨fun t ht => (h.of_mem_parts t ht).name_wrapped,
    fun hfits t ht => (hfits.of_mem_parts t ht).mirrors,
    fun _ => mirrors_nestedIn_iff h.name_wrapped⟩

/-- A by-reference type of an array that is nested in a type with the namespace of its element. -/
def fittingArray : TypeTerm :=
  (((plain "System".toList "Int32".toList).arrayOf 3).nestedIn
    (plain "System".toList "Math".toList)).refTo

/-- The array and the by-reference type mirror their elements. Nested elsewhere, the by-reference
type does not. -/
theorem mirrors_of_built_fittingArray :
    Built fittingArray ∧ BuiltWhere FitsElement fittingArray ∧
      (∀ t ∈ fittingArray.parts, ∀ element suffix,
        t.wrapped? = some (element, suffix) → t.name = element.name ++ suffix) ∧
      (∀ t ∈ fittingArray.parts, t.Mirrors) ∧ fittingArray.name = "Int32[,,]&".toList ∧
      ¬ (fittingArray.nestedIn (plain "Sample".toList "Outer".toList)).Mirrors := by
  have hbuilt : Built fittingArray :=
    .refTo (.nestedIn (.arrayOf 3 (.plain _ _)) (.plain _ _) trivial)
  have hfits : BuiltWhere FitsElement fittingArray := by
    refine .refTo (.nestedIn (.arrayOf 3 (.plain _ _)) (.plain _ _) ?_)
    rintro element suffix ⟨⟩
    rfl
  obtain ⟨hnames, hmirrors, hnested⟩ := mirrors_of_built hbuilt
  refine ⟨hbuilt, hfits, hnames, hmirrors hfits, by decide, ?_⟩
  rw [hnested]
  exact fun h => absurd (h _ _ rfl) (by decide)

/-- An array that is nested in a type of another namespace. -/
def nestedArray : TypeTerm :=
  ((plain "System".toList "Int32".toList).arrayOf 1).nestedIn
    (plain "Sample".toList "Outer".toList)

/-- **An array that is nested elsewhere does not mirror its element**, so that not all built terms
mirror theirs. -/
theorem nestedArray_not_mirrors : ¬ ∀ type, Built type → ∀ t ∈ type.parts, t.Mirrors := by
  intro hmirrors
  have hbuilt : Built nestedArray := .nestedIn (.arrayOf 1 (.plain _ _)) (.plain _ _) trivial
  have hspace : nestedArray.space = "System".toList :=
    (hmirrors nestedArray hbuilt nestedArray (mem_parts_self _) _ _ rfl).1
  exact absurd hspace (by decide)

end Built

end TypeTerm

end SymbolDocs
