import SymbolDocs.Member
set_option autoImplicit false

/-!
# Generic parameters in scope

An identifier refers to a generic parameter by its position. The positions of the declaring type
run along its nesting, the outermost type first, and are written after one backtick; those of a
method are its own and are written after two. A parameter of the method hides one of the same name
on the type.

## Main definitions

* `GenericLevel` — the names declared on one level, each with its position.
* `GenericScope` — the two levels an identifier can refer to.
* `GenericScope.reference` — the written form of a reference.
* `IdentifierError` — why an identifier cannot be written.

## Main results

* `GenericLevel.position?_declare` — a name declared again takes the new position.
* `GenericLevel.size_declare` — a level grows by the first declaration of a name.
-/

namespace SymbolDocs

/-! ### Why an identifier cannot be written -/

/-- Why an identifier cannot be written. -/
inductive IdentifierError where
  /-- A generic parameter is declared neither on the method nor along the nesting of its type. -/
  | unresolvedParameter (name : Text)
  /-- An array has no dimension; the name is that of its element. -/
  | arrayWithoutDimension (element : Text)
  /-- A conversion operator has no result type. -/
  | conversionWithoutResult (method : Text)
  deriving DecidableEq, Repr

/-- The wording of an error. -/
def IdentifierError.message : IdentifierError → Text
  | .unresolvedParameter name =>
    "generic parameter `".toList ++ name ++
      "` is declared neither on the member nor on its type".toList
  | .arrayWithoutDimension element =>
    "unhandled element type: array of rank 0 over `".toList ++ element ++ "`".toList
  | .conversionWithoutResult method =>
    "conversion operator `".toList ++ method ++ "` has no return type".toList

/-! ### Levels -/

/-- The names declared on one level in the order of their first declaration, each with its
position. -/
structure GenericLevel where
  /-- The names and their positions. -/
  positions : List (Text × Nat) := []
  deriving DecidableEq, Repr

namespace GenericLevel

/-- The position of a name on a level. -/
def position? (level : GenericLevel) (name : Text) : Option Nat :=
  level.positions.lookup name

/-- The number of distinct names on a level. -/
def size (level : GenericLevel) : Nat :=
  level.positions.length

/-- A list of named positions with one name set to a position. -/
def place (name : Text) (position : Nat) : List (Text × Nat) → List (Text × Nat)
  | [] => [(name, position)]
  | (other, index) :: rest =>
    if other = name then (name, position) :: rest else (other, index) :: place name position rest

/-- A level with one more declaration; a name declared before takes the new position. -/
def declare (level : GenericLevel) (name : Text) (position : Nat) : GenericLevel :=
  ⟨place name position level.positions⟩

/-- The level that declares some names one after the other, counted from `first`. -/
def declareAll (level : GenericLevel) (first : Nat) : List Text → GenericLevel
  | [] => level
  | name :: rest => declareAll (level.declare name first) (first + 1) rest

/-- The level of some names in order of declaration. -/
def ofNames (names : List Text) : GenericLevel :=
  declareAll {} 0 names

/-- **A name declared again takes the new position**; every other name keeps its own. -/
theorem position?_declare (level : GenericLevel) (name other : Text) (position : Nat) :
    (level.declare name position).position? other =
      if other = name then some position else level.position? other := by
  obtain ⟨positions⟩ := level
  simp only [declare, position?]
  induction positions with
  | nil =>
    by_cases h : other = name
    · simp [place, h]
    · have hb : (other == name) = false := by simpa using h
      simp [place, List.lookup_cons, h, hb]
  | cons entry rest ih =>
    obtain ⟨first, index⟩ := entry
    simp only [place]
    by_cases hf : first = name
    · subst hf
      by_cases h : other = first
      · simp [h]
      · have hb : (other == first) = false := by simpa using h
        simp [List.lookup_cons, h, hb]
    · by_cases h : other = first
      · subst h; simp [hf]
      · have hb : (other == first) = false := by simpa using h
        simp [hf, List.lookup_cons, hb, ih]

/-- A level grows by the first declaration of a name alone. -/
theorem size_declare (level : GenericLevel) (name : Text) (position : Nat) :
    (level.declare name position).size =
      if level.position? name = none then level.size + 1 else level.size := by
  obtain ⟨positions⟩ := level
  simp only [declare, position?, size]
  induction positions with
  | nil => simp [place]
  | cons entry rest ih =>
    obtain ⟨first, index⟩ := entry
    simp only [place]
    by_cases h : first = name
    · subst h; simp
    · have hb : (name == first) = false := by simpa using Ne.symm h
      simp only [h, if_false, List.lookup_cons, hb, List.length_cons, ih]
      by_cases hnone : rest.lookup name = none <;> simp [hnone]

end GenericLevel

/-! ### Scopes -/

/-- The generic parameters an identifier can refer to. -/
structure GenericScope where
  /-- The parameters along the nesting of the declaring type. -/
  ofType : GenericLevel := {}
  /-- The parameters of the member itself. -/
  ofMember : GenericLevel := {}
  deriving DecidableEq, Repr

namespace GenericScope

/-- The scope of a type: the parameters along its nesting, the outermost type first. -/
def forType (type : TypeTerm) : GenericScope :=
  { ofType := .ofNames (type.nesting.flatMap TypeTerm.parameters) }

/-- The scope of a method: that of its declaring type, and its own parameters. -/
def forMethod (method : Method) : GenericScope :=
  { forType method.declaring with ofMember := .ofNames method.generics }

/-- The scope of a constructor: that of its declaring type. -/
def forConstructor (constructor : Constructor) : GenericScope :=
  forType constructor.declaring

/-- The written form of a reference to a generic parameter. The parameters of the member come
first. -/
def reference (scope : GenericScope) (name : Text) : Except IdentifierError Text :=
  match scope.ofMember.position? name with
  | some position => .ok ("``".toList ++ Text.ofNat position)
  | none =>
    match scope.ofType.position? name with
    | some position => .ok ("`".toList ++ Text.ofNat position)
    | none => .error (.unresolvedParameter name)

end GenericScope

end SymbolDocs
