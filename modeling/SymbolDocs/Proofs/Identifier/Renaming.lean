import SymbolDocs.Identifier.Basic
import SymbolDocs.Proofs.Outcome
set_option autoImplicit false

/-!
# Renamed generic parameters

An identifier refers to a generic parameter by its position. What the parameter is called, where it
is declared and wherever a type refers to it, is of no matter to the identifier.

## Main definitions

* `TypeTerm.rename`, `Method.rename`, `Constructor.rename` — all generic parameters renamed.
* `GenericScope.Renames` — two scopes that give a name and its renaming the same positions.
* `Renaming.Agree` — outcomes that differ at most in the names that an error shows.

## Main results

* `GenericLevel.position?_ofNames_map` — a renamed parameter keeps its position.
* `Renaming.agree_write` — a renamed type is written as it was.
* `Identifier.ofMethod_rename`, `Identifier.ofConstructor_rename` — the same for whole identifiers.
* `Identifier.identifier_rename` — renamed members keep their identifiers, or the lack of one.

## Design

The header of an array, a pointer or a by-reference type shows the name of its element, which may be
a generic parameter. It is for display, and is left as it is.
-/

namespace SymbolDocs

/-! ### Renaming -/

namespace TypeTerm

mutual

/-- The term with all generic parameters renamed, where they are declared and where they are
referred to. -/
def rename (σ : Text → Text) : TypeTerm → TypeTerm
  | .named header declaring parameters arguments =>
    .named header (renameOuter σ declaring) (parameters.map σ) (renameAll σ arguments)
  | .genericParameter header => .genericParameter { header with name := σ header.name }
  | .array header element rank => .array header (rename σ element) rank
  | .pointer header element => .pointer header (rename σ element)
  | .byRef header element => .byRef header (rename σ element)

/-- The enclosing type with all generic parameters renamed. -/
def renameOuter (σ : Text → Text) : Option TypeTerm → Option TypeTerm
  | some outer => some (rename σ outer)
  | none => none

/-- Some terms with all generic parameters renamed. -/
def renameAll (σ : Text → Text) : List TypeTerm → List TypeTerm
  | [] => []
  | type :: rest => rename σ type :: renameAll σ rest

end

/-- The parameters that a renamed type declares are the renamed ones. -/
theorem parameters_rename (σ : Text → Text) (type : TypeTerm) :
    (type.rename σ).parameters = type.parameters.map σ := by
  cases type <;> simp [rename, parameters]

/-- The nesting of a renamed type is the nesting with each type renamed. -/
theorem nesting_rename (σ : Text → Text) (type : TypeTerm) :
    (type.rename σ).nesting = type.nesting.map (rename σ) := by
  induction type using rec_on_parts with
  | named header declaring parameters arguments ihouter _ =>
    cases declaring with
    | none => simp [rename, renameOuter, nesting]
    | some outer => simp [rename, renameOuter, nesting, ihouter outer rfl]
  | _ => simp [rename, nesting]

/-- A renamed type has its own name, or the renaming of it. -/
theorem name_rename (σ : Text → Text) (type : TypeTerm) :
    (type.rename σ).name = type.name ∨ (type.rename σ).name = σ type.name := by
  cases type <;> simp [rename, name, header]

end TypeTerm

/-- A method with all generic parameters renamed: its own and those of its types. -/
def Method.rename (σ : Text → Text) (method : Method) : Method :=
  { method with
    declaring := method.declaring.rename σ
    generics := method.generics.map σ
    parameters := method.parameters.map fun parameter =>
      { parameter with type := parameter.type.rename σ }
    returns := method.returns.map (TypeTerm.rename σ) }

/-- A constructor with all generic parameters renamed. -/
def Constructor.rename (σ : Text → Text) (constructor : Constructor) : Constructor where
  declaring := constructor.declaring.rename σ
  parameters := constructor.parameters.map fun parameter =>
    { parameter with type := parameter.type.rename σ }

/-! ### Positions -/

variable {σ : Text → Text}

namespace GenericLevel

/-- Declarations under a renaming keep the positions that names have before them.

**Proof sketch.** By induction on the names. A name and another one are renamed alike only if they
are the same, so that the declaration of the one moves the other on both levels or on none. -/
theorem position?_declareAll_map (hσ : Function.Injective σ) (names : List Text) (first : Nat)
    {level renamed : GenericLevel}
    (h : ∀ name, renamed.position? (σ name) = level.position? name) (name : Text) :
    (renamed.declareAll first (names.map σ)).position? (σ name) =
      (level.declareAll first names).position? name := by
  induction names generalizing level renamed first with
  | nil => exact h name
  | cons declared rest ih =>
    refine ih (first + 1) fun other => ?_
    rw [position?_declare, position?_declare, h]
    simp only [hσ.eq_iff]

/-- **A renamed parameter keeps its position.** -/
theorem position?_ofNames_map (hσ : Function.Injective σ) (names : List Text) (name : Text) :
    (ofNames (names.map σ)).position? (σ name) = (ofNames names).position? name :=
  position?_declareAll_map hσ names 0 (fun _ => rfl) name

end GenericLevel

namespace GenericScope

/-- A scope gives the renaming of every name the positions that another scope gives the name. -/
structure Renames (σ : Text → Text) (renamed scope : GenericScope) : Prop where
  /-- The positions along the nesting of the declaring type. -/
  ofType : ∀ name, renamed.ofType.position? (σ name) = scope.ofType.position? name
  /-- The positions on the member itself. -/
  ofMember : ∀ name, renamed.ofMember.position? (σ name) = scope.ofMember.position? name

/-- The scope of a renamed type renames the scope of the type. -/
theorem renames_forType (hσ : Function.Injective σ) (type : TypeTerm) :
    Renames σ (forType (type.rename σ)) (forType type) where
  ofType name := by
    have hnames : (type.rename σ).nesting.flatMap TypeTerm.parameters =
        (type.nesting.flatMap TypeTerm.parameters).map σ := by
      rw [TypeTerm.nesting_rename, List.flatMap_map, List.map_flatMap]
      exact congrArg List.flatten (List.map_congr_left fun t _ => t.parameters_rename σ)
    rw [forType, forType, hnames]
    exact GenericLevel.position?_ofNames_map hσ _ name
  ofMember _ := rfl

/-- The scope of a renamed method renames the scope of the method. -/
theorem renames_forMethod (hσ : Function.Injective σ) (method : Method) :
    Renames σ (forMethod (method.rename σ)) (forMethod method) where
  ofType := (renames_forType hσ method.declaring).ofType
  ofMember := GenericLevel.position?_ofNames_map hσ method.generics

end GenericScope

/-! ### Outcomes -/

namespace Renaming

/-- Two errors that differ at most in the names of generic parameters. -/
inductive SameError (σ : Text → Text) : IdentifierError → IdentifierError → Prop where
  /-- A parameter that is declared nowhere, and its renaming. -/
  | unresolvedParameter {name : Text} :
      SameError σ (.unresolvedParameter (σ name)) (.unresolvedParameter name)
  /-- An array without dimensions; its element may be a generic parameter. -/
  | arrayWithoutDimension {renamed element : Text}
      (name : renamed = element ∨ renamed = σ element) :
      SameError σ (.arrayWithoutDimension renamed) (.arrayWithoutDimension element)
  /-- A conversion operator without a result. -/
  | conversionWithoutResult {method : Text} :
      SameError σ (.conversionWithoutResult method) (.conversionWithoutResult method)

/-- Two outcomes that differ at most in the names of generic parameters: the same results, or errors
that differ so. -/
inductive Agree (σ : Text → Text) {α : Type} :
    Except IdentifierError α → Except IdentifierError α → Prop where
  /-- The same results. -/
  | ok (result : α) : Agree σ (.ok result) (.ok result)
  /-- Errors that differ at most in names. -/
  | error {renamed original : IdentifierError} (same : SameError σ renamed original) :
      Agree σ (.error renamed) (.error original)

variable {α β : Type}

/-- Steps that agree, followed by steps that agree, agree. -/
theorem Agree.bind {renamed original : Except IdentifierError α}
    {next next' : α → Except IdentifierError β} (h : Agree σ renamed original)
    (hnext : ∀ a, Agree σ (next a) (next' a)) :
    Agree σ (renamed >>= next) (original >>= next') := by
  cases h with
  | ok result => exact hnext result
  | error same => exact .error same

/-- Lists of steps that agree one by one agree. -/
theorem agree_mapM {γ δ : Type} {f : γ → Except IdentifierError α}
    {g : δ → Except IdentifierError α} {change : δ → γ} {items : List δ}
    (h : ∀ item ∈ items, Agree σ (f (change item)) (g item)) :
    Agree σ ((items.map change).mapM f) (items.mapM g) := by
  induction items with
  | nil => exact .ok []
  | cons item rest ih =>
    rw [List.map_cons, List.mapM_cons, List.mapM_cons]
    have hrest := ih fun other hother => h other (List.mem_cons_of_mem item hother)
    exact (h item List.mem_cons_self).bind fun a => hrest.bind fun as => .ok (a :: as)

/-- Outcomes that agree have the same results. -/
theorem Agree.ok_iff {renamed original : Except IdentifierError α} (h : Agree σ renamed original)
    (result : α) : renamed = .ok result ↔ original = .ok result := by
  cases h <;> simp

/-- Outcomes that agree miss a parameter and its renaming. -/
theorem Agree.unresolved_iff (hσ : Function.Injective σ)
    {renamed original : Except IdentifierError α} (h : Agree σ renamed original) (name : Text) :
    renamed = .error (.unresolvedParameter (σ name)) ↔
      original = .error (.unresolvedParameter name) := by
  cases h with
  | ok result => simp
  | error same => cases same <;> simp [hσ.eq_iff]

/-! ### Written names -/

open Naming

/-- A renamed parameter is referred to as it was. -/
theorem agree_reference {renamed scope : GenericScope} (h : GenericScope.Renames σ renamed scope)
    (name : Text) : Agree σ (renamed.reference (σ name)) (scope.reference name) := by
  rw [GenericScope.reference, GenericScope.reference, h.ofMember, h.ofType]
  cases scope.ofMember.position? name with
  | some position => exact .ok _
  | none =>
    cases scope.ofType.position? name with
    | some position => exact .ok _
    | none => exact .error .unresolvedParameter

/-- The written names of renamed types are those of the types, where this holds of each. -/
theorem agree_writeAll {form : NameForm} {renamed scope : GenericScope} {types : List TypeTerm}
    (h : ∀ t ∈ types, Agree σ (write form renamed (t.rename σ)) (write form scope t)) :
    Agree σ (writeAll form renamed (TypeTerm.renameAll σ types)) (writeAll form scope types) := by
  induction types with
  | nil => exact .ok []
  | cons type rest ih =>
    rw [TypeTerm.renameAll, writeAll, writeAll]
    have hrest := ih fun t ht => h t (List.mem_cons_of_mem type ht)
    exact (h type List.mem_cons_self).bind fun name => hrest.bind fun names => .ok (name :: names)

/-- **A renamed type is written as it was**, in scopes that give the renamed names the positions of
the names.

**Proof sketch.** By induction on the type. Only generic parameters are looked up, and both scopes
know the same of them. -/
theorem agree_write (form : NameForm) {renamed scope : GenericScope}
    (h : GenericScope.Renames σ renamed scope) (type : TypeTerm) :
    Agree σ (write form renamed (type.rename σ)) (write form scope type) := by
  induction type using TypeTerm.rec_on_parts with
  | named header declaring parameters arguments ihouter iharguments =>
    have hqualifier : Agree σ
        (qualifier form renamed header.space (TypeTerm.renameOuter σ declaring))
        (qualifier form scope header.space declaring) := by
      cases declaring with
      | none => exact .ok _
      | some outer => exact (ihouter outer rfl).bind fun name => .ok _
    rw [TypeTerm.rename, write, write]
    refine hqualifier.bind fun outer => ?_
    cases form with
    | definition => exact .ok _
    | signature =>
      -- the list in braces is that of the arguments, or else of the parameters
      cases arguments with
      | nil =>
        have hlisted : Agree σ ((parameters.map σ).mapM renamed.reference)
            (parameters.mapM scope.reference) :=
          agree_mapM fun name _ => agree_reference h name
        exact hlisted.bind fun listed => .ok _
      | cons first rest => exact (agree_writeAll iharguments).bind fun listed => .ok _
  | genericParameter header => exact agree_reference h header.name
  | array header element rank ih =>
    rw [TypeTerm.rename, write, write]
    refine ih.bind fun name => ?_
    split
    · exact .error (.arrayWithoutDimension (element.name_rename σ))
    · exact .ok _
  | pointer header element ih => exact ih.bind fun name => .ok _
  | byRef header element ih => exact ih.bind fun name => .ok _

end Renaming

/-! ### Identifiers -/

namespace Identifier

open Naming Renaming

/-- The parameters of a callable are written as they were when all their types are renamed. -/
theorem agree_signature {renamed scope : GenericScope} (h : GenericScope.Renames σ renamed scope)
    (parameters : List Parameter) :
    Agree σ (signature renamed (parameters.map fun parameter =>
      { parameter with type := parameter.type.rename σ })) (signature scope parameters) := by
  cases parameters with
  | nil => exact .ok []
  | cons first rest =>
    have hnames : Agree σ
        (((first :: rest).map fun parameter =>
          { parameter with type := parameter.type.rename σ }).mapM fun parameter =>
            write .signature renamed parameter.type)
        ((first :: rest).mapM fun parameter => write .signature scope parameter.type) :=
      agree_mapM fun parameter _ => agree_write .signature h parameter.type
    exact hnames.bind fun names => .ok _

/-- The result of a conversion operator is written as it was. -/
theorem agree_conversionResult {renamed scope : GenericScope}
    (h : GenericScope.Renames σ renamed scope) (method : Method) :
    Agree σ (conversionResult renamed (method.rename σ)) (conversionResult scope method) := by
  have hconversion : (method.rename σ).isConversion = method.isConversion := rfl
  have hreturns : (method.rename σ).returns = method.returns.map (TypeTerm.rename σ) := rfl
  rw [conversionResult, conversionResult, hconversion, hreturns]
  split
  · cases method.returns with
    | none => exact .error .conversionWithoutResult
    | some type => exact (agree_write .signature h type).bind fun name => .ok _
  · exact .ok []

/-- As many generic parameters are written for a renamed method. -/
theorem genericArity_map (σ : Text → Text) (names : List Text) :
    genericArity (names.map σ) = genericArity names := by
  cases names <;> simp [genericArity]

/-- **The identifier of a renamed method is that of the method**, or their errors agree. -/
theorem ofMethod_rename (hσ : Function.Injective σ) (method : Method) :
    Agree σ (ofMethod (method.rename σ)) (ofMethod method) := by
  have hscope := GenericScope.renames_forMethod hσ method
  have harity : genericArity (method.rename σ).generics = genericArity method.generics :=
    genericArity_map σ method.generics
  rw [ofMethod, ofMethod, harity]
  refine (agree_write .definition hscope method.declaring).bind fun declaring => ?_
  refine (agree_signature hscope method.parameters).bind fun parameters => ?_
  exact (agree_conversionResult hscope method).bind fun result => .ok _

/-- **The identifier of a renamed constructor is that of the constructor**, or their errors
agree. -/
theorem ofConstructor_rename (hσ : Function.Injective σ) (constructor : Constructor) :
    Agree σ (ofConstructor (constructor.rename σ)) (ofConstructor constructor) := by
  have hscope := GenericScope.renames_forType hσ constructor.declaring
  rw [ofConstructor, ofConstructor]
  refine (agree_write .definition hscope constructor.declaring).bind fun declaring => ?_
  exact (agree_signature hscope constructor.parameters).bind fun parameters => .ok _

/-- **Identifiers depend on generic parameters by position, not by name.** An injective renaming of
all generic parameters of a method or a constructor leaves its identifier, and where it has none
because a parameter is not declared, the renamed one lacks the renaming of that parameter. Whether a
method hides a parameter of its type, or a name is declared more than once, is of no matter. -/
theorem identifier_rename (hσ : Function.Injective σ) :
    (∀ method : Method,
      (∀ identifier, ofMethod (method.rename σ) = .ok identifier ↔
        ofMethod method = .ok identifier) ∧
      ∀ name, ofMethod (method.rename σ) = .error (.unresolvedParameter (σ name)) ↔
        ofMethod method = .error (.unresolvedParameter name)) ∧
    ∀ constructor : Constructor,
      (∀ identifier, ofConstructor (constructor.rename σ) = .ok identifier ↔
        ofConstructor constructor = .ok identifier) ∧
      ∀ name, ofConstructor (constructor.rename σ) = .error (.unresolvedParameter (σ name)) ↔
        ofConstructor constructor = .error (.unresolvedParameter name) := by
  refine ⟨fun method => ?_, fun constructor => ?_⟩
  · have hagree := ofMethod_rename hσ method
    exact ⟨hagree.ok_iff, hagree.unresolved_iff hσ⟩
  · have hagree := ofConstructor_rename hσ constructor
    exact ⟨hagree.ok_iff, hagree.unresolved_iff hσ⟩

/-- A method with a parameter `T` of its own on a type that declares `T` twice and `U`. It takes a
pair of `T` and `U`, and a `V` that is declared nowhere. -/
def hidingMethod (unresolved : Bool) : Method where
  name := "Map".toList
  declaring := .named { name := "Box`3".toList } none ["T".toList, "U".toList, "T".toList] []
  generics := ["T".toList]
  parameters := ⟨"pair".toList, .named { name := "Pair`2".toList } none []
    [.parameter "T".toList, .parameter "U".toList]⟩ ::
    if unresolved then [⟨"other".toList, .parameter "V".toList⟩] else []

/-- Under longer names of the parameters the method keeps its identifier, and where it lacks one,
the longer name is what is missing. -/
theorem identifier_rename_hidingMethod :
    Function.Injective (List.cons '_') ∧
      ofMethod ((hidingMethod false).rename (List.cons '_')) =
        .ok "M:Box`3.Map``1(Pair\x7b``0,`1\x7d)".toList ∧
      ofMethod ((hidingMethod true).rename (List.cons '_')) =
        .error (.unresolvedParameter "_V".toList) := by
  have hσ : Function.Injective (List.cons '_') := fun _ _ h => (List.cons.inj h).2
  have hrename := (identifier_rename hσ).1
  exact ⟨hσ, ((hrename (hidingMethod false)).1 _).mpr rfl,
    ((hrename (hidingMethod true)).2 "V".toList).mpr rfl⟩

end Identifier

end SymbolDocs
