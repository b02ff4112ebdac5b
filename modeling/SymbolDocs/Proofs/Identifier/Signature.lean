import SymbolDocs.Identifier.Basic
set_option autoImplicit false

/-!
# Signatures

The signature of a type is what its written name is meant to tell: which generic parameter it is,
or its wrappers over the signature of the element, or the segments of its path. The signature of a
symbol puts those of its types together. Two types with one signature in their scopes need not be
equal terms: they may differ in headers of wrappers, in the namespaces of nested types, or in how a
generic parameter is called.

## Main definitions

* `GenericReference`, `GenericScope.resolve` — the level and position a name refers to.
* `TypeSignature`, `TypeSignature.ofTerm` — the signature of a type in a scope.
* `SymbolSignature`, `SymbolSignature.ofSymbol` — the signature of a symbol.

## Design

A signature is defined from the term alone, without the written name. The form decides what a
segment holds, as it decides what is written: a definition keeps the arity mark as part of the name
and lists nothing, a reference has the base name and the signatures of what stands in braces.

The path is one list of segments. A namespace `A` and an enclosing type `A` without arguments give
the same segment, since no identifier can tell them apart.
-/

namespace SymbolDocs

/-! ### References to generic parameters -/

/-- The level on which a generic parameter is declared. -/
inductive ParameterLevel where
  /-- Along the nesting of the declaring type. -/
  | ofType
  /-- On the member itself. -/
  | ofMember
  deriving DecidableEq, Repr

/-- A generic parameter by its level and position. -/
structure GenericReference where
  /-- The level that declares the parameter. -/
  level : ParameterLevel
  /-- The position on the level. -/
  position : Nat
  deriving DecidableEq, Repr

/-- The generic parameter a name refers to; those of the member come first. -/
def GenericScope.resolve (scope : GenericScope) (name : Text) :
    Except IdentifierError GenericReference :=
  match scope.ofMember.position? name, scope.ofType.position? name with
  | some position, _ => .ok ⟨.ofMember, position⟩
  | none, some position => .ok ⟨.ofType, position⟩
  | none, none => .error (.unresolvedParameter name)

/-! ### Types -/

/-- What makes a type another type over an element. -/
inductive Wrapper where
  /-- An array of some rank. -/
  | array (rank : UInt32)
  /-- A pointer. -/
  | pointer
  /-- A by-reference type. -/
  | byRef
  deriving DecidableEq, Repr

/-- The signature of a type. -/
inductive TypeSignature where
  /-- A generic parameter. -/
  | reference (target : GenericReference)
  /-- A path of segments, each a name with the signatures of its generic arguments. -/
  | path (segments : List (Text × List TypeSignature))
  /-- A wrapper over the signature of the element. -/
  | wrapped (wrapper : Wrapper) (element : TypeSignature)
  deriving Repr

namespace TypeSignature

/-- The segments of a path; a signature of another kind has none. -/
def segments : TypeSignature → List (Text × List TypeSignature)
  | .path segments => segments
  | _ => []

/-- The segments of a namespace: its names between the dots, none of the empty namespace. -/
def ofSpace (space : Text) : List (Text × List TypeSignature) :=
  if space = [] then [] else (space.splitOn '.').map fun name => (name, [])

/-- A name up to its arity mark. -/
def baseName (name : Text) : Text :=
  name.takeWhile (· ≠ '\x60')

/-- The signatures of some generic parameters in order. -/
def ofParameters (scope : GenericScope) :
    List Text → Except IdentifierError (List TypeSignature)
  | [] => .ok []
  | name :: rest => do
    let target ← scope.resolve name
    let signatures ← ofParameters scope rest
    .ok (.reference target :: signatures)

mutual

/-- The signature of a type in a scope. The segments of a named type are those of its namespace,
one for each enclosing type from the outermost inwards, and one for the type itself. -/
def ofTerm (form : NameForm) (scope : GenericScope) :
    TypeTerm → Except IdentifierError TypeSignature
  | .genericParameter header => do
    let target ← scope.resolve header.name
    .ok (.reference target)
  | .array _ element rank => do
    let signature ← ofTerm form scope element
    .ok (.wrapped (.array rank) signature)
  | .pointer _ element => do
    let signature ← ofTerm form scope element
    .ok (.wrapped .pointer signature)
  | .byRef _ element => do
    let signature ← ofTerm form scope element
    .ok (.wrapped .byRef signature)
  | .named header declaring parameters arguments => do
    let outer ← outerSegments form scope header.space declaring
    match form with
    | .definition => .ok (.path (outer ++ [(header.name, [])]))
    | .signature =>
      let listed ←
        match arguments with
        | [] => ofParameters scope parameters
        | first :: rest => ofTerms form scope (first :: rest)
      .ok (.path (outer ++ [(baseName header.name, listed)]))

/-- The segments before that of a named type: those of its enclosing type or, where it has none, of
its namespace. -/
def outerSegments (form : NameForm) (scope : GenericScope) (space : Text) :
    Option TypeTerm → Except IdentifierError (List (Text × List TypeSignature))
  | some outer => do
    let signature ← ofTerm form scope outer
    .ok signature.segments
  | none => .ok (ofSpace space)

/-- The signatures of some types in order. -/
def ofTerms (form : NameForm) (scope : GenericScope) :
    List TypeTerm → Except IdentifierError (List TypeSignature)
  | [] => .ok []
  | type :: rest => do
    let signature ← ofTerm form scope type
    let signatures ← ofTerms form scope rest
    .ok (signature :: signatures)

end

end TypeSignature

/-! ### Symbols -/

/-- The signature of a symbol. -/
inductive SymbolSignature where
  /-- A type. -/
  | type (type : TypeSignature)
  /-- A method: the number of its own generic parameters, its parameters, and the result of a
  conversion operator. -/
  | method (declaring : TypeSignature) (name : Text) (arity : Nat)
      (parameters : List TypeSignature) (result : Option TypeSignature)
  /-- A constructor. -/
  | constructor (declaring : TypeSignature) (parameters : List TypeSignature)
  /-- A property, a field or an event, as its kind says. -/
  | plain (kind : SymbolKind) (declaring : TypeSignature) (name : Text)
  deriving Repr

namespace SymbolSignature

/-- The signature of the result of a conversion operator; none for any other method. -/
def ofResult (scope : GenericScope) (method : Method) :
    Except IdentifierError (Option TypeSignature) :=
  if method.isConversion then
    match method.returns with
    | none => .error (.conversionWithoutResult method.name)
    | some returned => do
      let signature ← TypeSignature.ofTerm .signature scope returned
      .ok (some signature)
  else .ok none

/-- The signature of a method: the declaring type as a definition, all other types as
references. -/
def ofMethod (method : Method) : Except IdentifierError SymbolSignature := do
  let scope := GenericScope.forMethod method
  let declaring ← TypeSignature.ofTerm .definition scope method.declaring
  let parameters ← TypeSignature.ofTerms .signature scope (method.parameters.map Parameter.type)
  let result ← ofResult scope method
  .ok (.method declaring method.name method.generics.length parameters result)

/-- The signature of a constructor. -/
def ofConstructor (constructor : Constructor) : Except IdentifierError SymbolSignature := do
  let scope := GenericScope.forConstructor constructor
  let declaring ← TypeSignature.ofTerm .definition scope constructor.declaring
  let parameters ←
    TypeSignature.ofTerms .signature scope (constructor.parameters.map Parameter.type)
  .ok (.constructor declaring parameters)

/-- The signature of a member known by its name and declaring type alone. -/
def ofPlainMember (kind : SymbolKind) (member : PlainMember) :
    Except IdentifierError SymbolSignature := do
  let declaring ← TypeSignature.ofTerm .definition {} member.declaring
  .ok (.plain kind declaring member.name)

/-- The signature of a symbol. -/
def ofSymbol : Symbol → Except IdentifierError SymbolSignature
  | .type term => do
    let signature ← TypeSignature.ofTerm .definition (.forType term) term
    .ok (.type signature)
  | .member (.method m) => ofMethod m
  | .member (.constructor c) => ofConstructor c
  | .member (.property p) => ofPlainMember .property p
  | .member (.field f) => ofPlainMember .field f
  | .member (.event e) => ofPlainMember .event e

end SymbolSignature

end SymbolDocs
