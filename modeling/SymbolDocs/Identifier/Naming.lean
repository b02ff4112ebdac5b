import SymbolDocs.Identifier.Generic
import SymbolDocs.Text.Digit
set_option autoImplicit false

/-!
# Names of types in identifiers

A type that is the subject of an identifier is written as a definition, with the arity marks of its
name and without arguments. A type inside a signature is written as a reference, without arity marks
and with its generic arguments, or its own generic parameters, listed in braces.

## Main definitions

* `NameForm` — the two ways of writing a type.
* `Naming.withoutArity` — a name without its arity marks.
* `Naming.write` — the written name of a type.
* `Naming.listing` — what a type lists in braces.

## Main results

* `Naming.qualifier_none`, `Naming.qualifier_some` — what stands before a name.
* `Naming.write_named_signature` — the three parts of a named type in a signature.
-/

namespace SymbolDocs

/-- How a type is written. -/
inductive NameForm where
  /-- As the subject of an identifier. -/
  | definition
  /-- Inside a signature. -/
  | signature
  deriving DecidableEq, Repr

namespace Naming

/-! ### Arity marks -/

/-- A name without its arity marks, where `marked` tells whether the digits of a mark are being
skipped. An arity mark is a backtick and the decimal digits that follow it, at least one. -/
def withoutArityFrom (marked : Bool) : Text → Text
  | [] => []
  | c :: name =>
    if marked && Text.isDigit c then withoutArityFrom true name
    else if c = '\x60' && (name.head?.any Text.isDigit) then withoutArityFrom true name
    else c :: withoutArityFrom false name

/-- A name without its arity marks. -/
def withoutArity (name : Text) : Text :=
  withoutArityFrom false name

/-! ### Written names -/

/-- Texts separated by commas. -/
def commaSeparated (texts : List Text) : Text :=
  List.intercalate [','] texts

/-- The dimensions of an array with at least one of them: `[]`, or `0:` for each of several. -/
def dimensions (rank : UInt32) : Text :=
  if rank = 1 then "[]".toList
  else '[' :: commaSeparated (List.replicate rank.toNat "0:".toList) ++ [']']

/-- The list in braces of the arguments of a type, or, where it has none, of its own parameters. -/
def braces : List Text → Text
  | [] => []
  | names => '\x7b' :: commaSeparated names ++ ['\x7d']

mutual

/-- The written name of a type in a scope. -/
def write (form : NameForm) (scope : GenericScope) : TypeTerm → Except IdentifierError Text
  | .genericParameter header => scope.reference header.name
  | .array _ element rank => do
    let name ← write form scope element
    if rank = 0 then .error (.arrayWithoutDimension element.name)
    else .ok (name ++ dimensions rank)
  | .pointer _ element => do
    let name ← write form scope element
    .ok (name ++ ['*'])
  | .byRef _ element => do
    let name ← write form scope element
    .ok (name ++ ['@'])
  | .named header declaring parameters arguments => do
    let outer ← qualifier form scope header.space declaring
    match form with
    | .definition => .ok (outer ++ header.name)
    | .signature =>
      let listed ←
        match arguments with
        | [] => parameters.mapM scope.reference
        | first :: rest => writeAll form scope (first :: rest)
      .ok (outer ++ withoutArity header.name ++ braces listed)

/-- What stands before the name of a named type: its enclosing type or, where it has none, its
namespace, and a dot. -/
def qualifier (form : NameForm) (scope : GenericScope) (space : Text) :
    Option TypeTerm → Except IdentifierError Text
  | some outer => do
    let name ← write form scope outer
    .ok (name ++ ['.'])
  | none => .ok (match space with
    | [] => []
    | c :: rest => c :: rest ++ ['.'])

/-- The written names of some types in order. -/
def writeAll (form : NameForm) (scope : GenericScope) :
    List TypeTerm → Except IdentifierError (List Text)
  | [] => .ok []
  | type :: rest => do
    let name ← write form scope type
    let names ← writeAll form scope rest
    .ok (name :: names)

end

/-- A namespace is written with a dot behind it, and the empty one not at all. -/
theorem qualifier_none (form : NameForm) (scope : GenericScope) (space : Text) :
    qualifier form scope space none = .ok (if space = [] then [] else space ++ ['.']) := by
  cases space <;> simp [qualifier]

/-- An enclosing type is written with a dot behind it. -/
theorem qualifier_some (form : NameForm) (scope : GenericScope) (space : Text) (outer : TypeTerm) :
    qualifier form scope space (some outer) = (write form scope outer).map (· ++ ['.']) := by
  rw [qualifier]
  cases write form scope outer <;> rfl

/-- Some types are written one by one. -/
theorem writeAll_eq_mapM (form : NameForm) (scope : GenericScope) (types : List TypeTerm) :
    writeAll form scope types = types.mapM (write form scope) := by
  induction types with
  | nil => rfl
  | cons type types ih =>
    rw [writeAll, ih, List.mapM_cons]
    rfl

/-- What a named type lists in braces inside a signature: its arguments or, where it has none, its
own parameters. -/
def listing (scope : GenericScope) (parameters : List Text) (arguments : List TypeTerm) :
    Except IdentifierError (List Text) :=
  if arguments = [] then parameters.mapM scope.reference
  else arguments.mapM (write .signature scope)

/-- **A named type is written in a signature in three parts**: what stands before its name, the name
without arity marks, and the list in braces. -/
theorem write_named_signature (scope : GenericScope) (header : TypeHeader)
    (declaring : Option TypeTerm) (parameters : List Text) (arguments : List TypeTerm) :
    write .signature scope (.named header declaring parameters arguments) =
      qualifier .signature scope header.space declaring >>= fun outer =>
        (listing scope parameters arguments).map fun listed =>
          outer ++ withoutArity header.name ++ braces listed := by
  rw [write]
  refine congrArg _ (funext fun outer => ?_)
  cases arguments with
  | nil =>
    rw [listing, if_pos rfl]
    cases parameters.mapM scope.reference <;> rfl
  | cons first rest =>
    dsimp only
    rw [listing, if_neg (List.cons_ne_nil first rest), writeAll_eq_mapM]
    cases (first :: rest).mapM (write .signature scope) <;> rfl

end Naming

end SymbolDocs
