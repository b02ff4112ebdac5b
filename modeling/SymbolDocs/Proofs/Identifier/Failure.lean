import SymbolDocs.Identifier.Basic
import SymbolDocs.Proofs.Outcome
import SymbolDocs.Proofs.TypeTerm.Flatten
set_option autoImplicit false

/-!
# When an identifier cannot be written

Writing a type visits its generic parameters and the ranks of its arrays in the order in which they
stand in the text. It fails exactly where one of them is at fault, and with the first that is. The
identifier of a method or a constructor visits its declaring type, its parameters and, for a
conversion operator, its result.

## Main definitions

* `Visit` — what is visited, with `Visit.fault?`, what is at fault with it in a scope.
* `TypeTerm.visits`, `Method.visits`, `Constructor.visits` — what is visited, in order.
* `ToldBy` — an outcome that is the first fault of some visits, or a success without one.

## Main results

* `Naming.error?_write` — a type is written unless a visit is at fault.
* `Identifier.error?_ofMethod`, `Identifier.error?_ofConstructor` — the same for identifiers.
* `Identifier.fails_first` — identifiers fail exactly when they must, with the first fault.

## Design

A type that is the subject of an identifier is written without its arguments and parameters, so that
these are not visited. What they hold is of no matter to an identifier of the type itself.
-/

namespace SymbolDocs

/-! ### Visits -/

/-- What is visited where a name is written. -/
inductive Visit where
  /-- The name of a generic parameter. -/
  | parameter (name : Text)
  /-- The rank of an array over an element of some name. -/
  | rank (element : Text) (rank : UInt32)
  /-- The result that a conversion operator lacks. -/
  | noResult (method : Text)
  deriving DecidableEq, Repr

/-- Whether a scope declares a generic parameter, on the member or along the nesting of its type. -/
def GenericScope.declares (scope : GenericScope) (name : Text) : Bool :=
  (scope.ofMember.position? name).isSome || (scope.ofType.position? name).isSome

/-- What is at fault with a visit: a parameter that the scope does not declare, an array without
dimensions, and always a result that is lacking. -/
def Visit.fault? (scope : GenericScope) : Visit → Option IdentifierError
  | .parameter name => if scope.declares name then none else some (.unresolvedParameter name)
  | .rank element dimensions =>
    if dimensions = 0 then some (.arrayWithoutDimension element) else none
  | .noResult method => some (.conversionWithoutResult method)

namespace TypeTerm

mutual

/-- What is visited where a type is written, in the order of the text. An array is visited behind
its element. A named type is visited behind its enclosing type, and only inside a signature: its
arguments or, where it has none, its own parameters. -/
def visits (form : NameForm) : TypeTerm → List Visit
  | .genericParameter header => [.parameter header.name]
  | .array _ element rank => visits form element ++ [.rank element.name rank]
  | .pointer _ element => visits form element
  | .byRef _ element => visits form element
  | .named _ declaring parameters arguments =>
    outerVisits form declaring ++
      match form with
      | .definition => []
      | .signature =>
        match arguments with
        | [] => parameters.map .parameter
        | first :: rest => visitsOfAll form (first :: rest)

/-- What is visited in the enclosing type, if there is one. -/
def outerVisits (form : NameForm) : Option TypeTerm → List Visit
  | some outer => visits form outer
  | none => []

/-- What is visited in some types, one after the other. -/
def visitsOfAll (form : NameForm) : List TypeTerm → List Visit
  | [] => []
  | type :: rest => visits form type ++ visitsOfAll form rest

end

end TypeTerm

/-- What is visited in a list of parameters. -/
def Parameter.visits (parameters : List Parameter) : List Visit :=
  parameters.flatMap fun parameter => parameter.type.visits .signature

/-- What is visited in the result of a conversion operator; nothing for any other method. -/
def Method.resultVisits (method : Method) : List Visit :=
  if method.isConversion then
    match method.returns with
    | none => [.noResult method.name]
    | some type => type.visits .signature
  else []

/-- What is visited for the identifier of a method. -/
def Method.visits (method : Method) : List Visit :=
  method.declaring.visits .definition ++ Parameter.visits method.parameters ++ method.resultVisits

/-- What is visited for the identifier of a constructor. -/
def Constructor.visits (constructor : Constructor) : List Visit :=
  constructor.declaring.visits .definition ++ Parameter.visits constructor.parameters

/-! ### Types -/

/-- The first fault of the parts of some items is that of the first item with one. -/
theorem findSome?_flatMap {α β γ : Type} (fault? : β → Option γ) (parts : α → List β)
    (items : List α) :
    (items.flatMap parts).findSome? fault? =
      items.findSome? fun item => (parts item).findSome? fault? := by
  induction items with
  | nil => rfl
  | cons item items ih =>
    rw [List.flatMap_cons, List.findSome?_append, ih]
    cases hitem : (parts item).findSome? fault? <;> simp [hitem]

/-- A reference fails as the visit of its parameter does. -/
theorem GenericScope.error?_reference (scope : GenericScope) (name : Text) :
    error? (scope.reference name) = (Visit.parameter name).fault? scope := by
  cases hmember : scope.ofMember.position? name with
  | some position => simp [reference, Visit.fault?, declares, hmember, error?]
  | none =>
    cases htype : scope.ofType.position? name <;>
      simp [reference, Visit.fault?, declares, hmember, htype, error?]

namespace Naming

variable {form : NameForm} {scope : GenericScope}

/-- Some types are written unless a visit to one of them is at fault, where each of them is. -/
theorem error?_writeAll {types : List TypeTerm}
    (h : ∀ type ∈ types,
      error? (write form scope type) = (type.visits form).findSome? (Visit.fault? scope)) :
    error? (writeAll form scope types) =
      (TypeTerm.visitsOfAll form types).findSome? (Visit.fault? scope) := by
  induction types with
  | nil => rfl
  | cons type types ih =>
    obtain ⟨htype, htypes⟩ := List.forall_mem_cons.mp h
    rw [writeAll, TypeTerm.visitsOfAll, List.findSome?_append, ← htype, ← ih htypes]
    refine error?_bind fun name => ?_
    cases writeAll form scope types <;> rfl

/-- What stands before the name of a type is written unless a visit to the enclosing type is at
fault. -/
theorem error?_qualifier {declaring : Option TypeTerm}
    (h : ∀ outer ∈ declaring,
      error? (write form scope outer) = (outer.visits form).findSome? (Visit.fault? scope))
    (space : Text) :
    error? (qualifier form scope space declaring) =
      (TypeTerm.outerVisits form declaring).findSome? (Visit.fault? scope) := by
  cases declaring with
  | none => rfl
  | some outer =>
    rw [qualifier, TypeTerm.outerVisits, ← h outer rfl]
    cases write form scope outer <;> rfl

/-- References are written unless a parameter is not declared. -/
theorem error?_mapM_reference (scope : GenericScope) (parameters : List Text) :
    error? (parameters.mapM scope.reference) =
      (parameters.map Visit.parameter).findSome? (Visit.fault? scope) := by
  rw [error?_mapM, List.findSome?_map]
  exact congrArg (parameters.findSome? ·) (funext scope.error?_reference)

/-- **A type is written unless a visit is at fault**, and then the first fault is the error.

**Proof sketch.** By induction on the type. The visits to its parts are those of the steps that
write them, in the same order, and of several steps the first that fails gives the error. -/
theorem error?_write (form : NameForm) (scope : GenericScope) (type : TypeTerm) :
    error? (write form scope type) = (type.visits form).findSome? (Visit.fault? scope) := by
  induction type using TypeTerm.rec_on_parts with
  | named header declaring parameters arguments ihouter iharguments =>
    have houter := error?_qualifier ihouter header.space
    cases form with
    | definition =>
      rw [write, TypeTerm.visits, List.append_nil, ← houter]
      cases qualifier .definition scope header.space declaring <;> rfl
    | signature =>
      cases arguments with
      | nil =>
        rw [write, TypeTerm.visits, List.findSome?_append, ← houter, ← error?_mapM_reference]
        refine error?_bind fun outer => ?_
        cases parameters.mapM scope.reference <;> rfl
      | cons first rest =>
        rw [write, TypeTerm.visits, List.findSome?_append, ← houter,
          ← error?_writeAll iharguments]
        refine error?_bind fun outer => ?_
        dsimp only
        cases writeAll .signature scope (first :: rest) <;> rfl
  | genericParameter header =>
    rw [write, scope.error?_reference, TypeTerm.visits, List.findSome?_singleton]
  | array header element rank ih =>
    rw [write, TypeTerm.visits, List.findSome?_append, ← ih]
    refine error?_bind fun name => ?_
    by_cases hrank : rank = 0
    · rw [if_pos hrank, List.findSome?_singleton, Visit.fault?, if_pos hrank]
      rfl
    · rw [if_neg hrank, List.findSome?_singleton, Visit.fault?, if_neg hrank]
      rfl
  | pointer header element ih =>
    rw [write, TypeTerm.visits, ← ih]
    cases write form scope element <;> rfl
  | byRef header element ih =>
    rw [write, TypeTerm.visits, ← ih]
    cases write form scope element <;> rfl

end Naming

/-! ### Identifiers -/

namespace Identifier

open Naming

/-- A parameter list is written unless a visit to a parameter is at fault. -/
theorem error?_signature (scope : GenericScope) (parameters : List Parameter) :
    error? (signature scope parameters) =
      (Parameter.visits parameters).findSome? (Visit.fault? scope) := by
  cases parameters with
  | nil => rfl
  | cons first rest =>
    rw [Parameter.visits, findSome?_flatMap]
    simp only [← error?_write]
    rw [← error?_mapM fun parameter : Parameter => write .signature scope parameter.type, signature]
    · cases (first :: rest).mapM fun parameter => write .signature scope parameter.type <;> rfl
    · nofun

/-- The result of a conversion operator is written unless it is lacking or a visit to it is at
fault. -/
theorem error?_conversionResult (scope : GenericScope) (method : Method) :
    error? (conversionResult scope method) =
      method.resultVisits.findSome? (Visit.fault? scope) := by
  rw [conversionResult, Method.resultVisits]
  split
  · cases method.returns with
    | none =>
      dsimp only
      rfl
    | some type =>
      dsimp only
      rw [← error?_write]
      cases write .signature scope type <;> rfl
  · rfl

/-- **A method has an identifier unless a visit is at fault**, and then the first fault is the
error. -/
theorem error?_ofMethod (method : Method) :
    error? (ofMethod method) =
      method.visits.findSome? (Visit.fault? (.forMethod method)) := by
  rw [Method.visits, List.findSome?_append, List.findSome?_append, Option.or_assoc, ofMethod,
    ← error?_write, ← error?_signature, ← error?_conversionResult]
  refine error?_bind fun declaring => error?_bind fun parameters => ?_
  cases conversionResult (.forMethod method) method <;> rfl

/-- **A constructor has an identifier unless a visit is at fault**, and then the first fault is the
error. -/
theorem error?_ofConstructor (constructor : Constructor) :
    error? (ofConstructor constructor) =
      constructor.visits.findSome? (Visit.fault? (.forConstructor constructor)) := by
  rw [Constructor.visits, List.findSome?_append, ofConstructor, ← error?_write, ← error?_signature]
  refine error?_bind fun declaring => ?_
  cases signature (.forConstructor constructor) constructor.parameters <;> rfl

/-- A type has an identifier unless a visit to it as a definition is at fault. -/
theorem error?_ofType (type : TypeTerm) :
    error? (ofType type) =
      (type.visits .definition).findSome? (Visit.fault? (.forType type)) := by
  rw [ofType, ← error?_write]
  cases write .definition (.forType type) type <;> rfl

end Identifier

/-! ### Outcomes -/

/-- An outcome is told by some visits: it is a success exactly where no visit is at fault, and an
error exactly where this is the fault of the first visit at fault. -/
def ToldBy (scope : GenericScope) (visits : List Visit) (outcome : Except IdentifierError Text) :
    Prop :=
  ((∃ text, outcome = .ok text) ↔ ∀ visit ∈ visits, visit.fault? scope = none) ∧
  ∀ error, outcome = .error error ↔
    ∃ before visit after, visits = before ++ visit :: after ∧
      (∀ earlier ∈ before, earlier.fault? scope = none) ∧ visit.fault? scope = some error

/-- An outcome is told by the visits whose first fault is its error. -/
theorem toldBy_of_error? {scope : GenericScope} {visits : List Visit}
    {outcome : Except IdentifierError Text}
    (h : error? outcome = visits.findSome? (Visit.fault? scope)) :
    ToldBy scope visits outcome := by
  have hsuccess : (∃ text, outcome = .ok text) ↔ error? outcome = none := by
    cases outcome <;> simp [error?]
  have herror : ∀ error, outcome = .error error ↔ error? outcome = some error := by
    cases outcome <;> simp [error?]
  refine ⟨?_, fun error => ?_⟩
  · rw [hsuccess, h, List.findSome?_eq_none_iff]
  · rw [herror, h, List.findSome?_eq_some_iff]
    simp only [and_comm]

namespace Identifier

open Naming

/-- **Identifiers fail exactly when they must, with the first fault.** A type is written unless one
of its generic parameters is not declared in the scope or one of its arrays has no dimension, and
the first of these in the text is the error. A method has an identifier unless this is so of its
declaring type as a definition, of one of its parameters, or of the result of a conversion operator,
which must not be lacking; again the first of these is the error. A constructor is like a method
without a result. So a type always has an identifier if it and all that enclose it are named. -/
theorem fails_first :
    (∀ form scope type, ToldBy scope (type.visits form) (write form scope type)) ∧
    (∀ method, ToldBy (.forMethod method) method.visits (ofMethod method)) ∧
    (∀ constructor,
      ToldBy (.forConstructor constructor) constructor.visits (ofConstructor constructor)) ∧
    (∀ type, ToldBy (.forType type) (type.visits .definition) (ofType type)) ∧
    ∀ type : TypeTerm, (∀ t ∈ type.nesting, t.isNamed = true) →
      ∃ identifier, ofType type = .ok identifier := by
  refine ⟨fun form scope type => toldBy_of_error? (error?_write form scope type),
    fun method => toldBy_of_error? (error?_ofMethod method),
    fun constructor => toldBy_of_error? (error?_ofConstructor constructor),
    fun type => toldBy_of_error? (error?_ofType type), fun type hnamed => ?_⟩
  rw [ofType, type.write_definition _ hnamed]
  exact ⟨_, rfl⟩

/-- A conversion operator without a result, on a constructed type inside another one. It takes an
array without dimensions of a `V` that is declared nowhere. -/
def brokenConversion : Method where
  name := "op_Explicit".toList
  declaring := .named { name := "Inner`1".toList }
    (some (.named { name := "Outer`1".toList } none ["T".toList] [])) ["U".toList]
    [.parameter "V".toList]
  parameters := [⟨"values".toList, .arrayOf 0 (.parameter "V".toList)⟩]

/-- Its declaring type has an identifier, whatever the argument. Of its own three faults the first
in the text is the error: that of the element of its parameter. -/
theorem fails_first_brokenConversion :
    (∀ t ∈ brokenConversion.declaring.nesting, t.isNamed = true) ∧
      (∃ identifier, ofType brokenConversion.declaring = .ok identifier) ∧
      ofMethod brokenConversion = .error (.unresolvedParameter "V".toList) := by
  have hnamed : ∀ t ∈ brokenConversion.declaring.nesting, t.isNamed = true := by decide
  refine ⟨hnamed, fails_first.2.2.2.2 _ hnamed, ((fails_first.2.1 brokenConversion).2 _).mpr ?_⟩
  exact ⟨[], .parameter "V".toList, [.rank "V".toList 0, .noResult "op_Explicit".toList], rfl,
    nofun, rfl⟩

end Identifier

end SymbolDocs
