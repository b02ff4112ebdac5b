import SymbolDocs.TypeTerm.Basic
set_option autoImplicit false

/-!
# Full names of types

The full name of a named type is the namespace of its outermost enclosing type, a dot, and the
names along the nesting joined by `+`. A constructed type lists the full names of all arguments
along the nesting after the innermost name, as `[[A],[B]]`. Arrays, pointers and by-reference types
append their suffix to the full name of their element.

## Main definitions

* `TypeTerm.qualifiedPath` — namespace and names along the nesting.
* `TypeTerm.fullName` — the full name.
* `FullName.withoutArguments` — a full name without the bracketed arguments of each line.
* `FullName.flatten` — the name with a dot for every nesting step, without arguments.

## Main results

* `TypeTerm.fullName_named` — the arguments shown are those along the nesting, outermost first.
-/

namespace SymbolDocs

namespace TypeTerm

/-! ### The full name -/

/-- The names along the nesting joined by `+`, after the namespace of the outermost type. -/
def qualifiedPath (type : TypeTerm) : Text :=
  let path := List.intercalate ['+'] (type.nesting.map name)
  match type.outermost.space with
  | [] => path
  | space => space ++ '.' :: path

/-- The bracketed list of argument names: nothing for no argument, else `[[A],[B]]`. -/
def argumentBrackets : List Text → Text
  | [] => []
  | names => '[' :: List.intercalate [','] (names.map fun name => '[' :: name ++ [']']) ++ [']']

mutual

/-- The full name of a type. -/
def fullName : TypeTerm → Text
  | .named header declaring parameters arguments =>
    qualifiedPath (.named header declaring parameters arguments) ++
      argumentBrackets (outerArgumentNames declaring ++ fullNames arguments)
  | .genericParameter header => header.name
  | .array _ element rank => fullName element ++ arrayBrackets rank
  | .pointer _ element => fullName element ++ ['*']
  | .byRef _ element => fullName element ++ ['&']

/-- The full names of the arguments of an enclosing type and of those that enclose it, outermost
first. -/
def outerArgumentNames : Option TypeTerm → List Text
  | some (.named _ declaring _ arguments) => outerArgumentNames declaring ++ fullNames arguments
  | _ => []

/-- The full names of some types. -/
def fullNames : List TypeTerm → List Text
  | [] => []
  | type :: rest => fullName type :: fullNames rest

end

/-- The full names of some types, one by one. -/
theorem fullNames_eq_map (types : List TypeTerm) : fullNames types = types.map fullName := by
  induction types with
  | nil => rfl
  | cons type rest ih => simp [fullNames, ih]

/-- The arguments along the nesting of an enclosing type are its outer arguments. -/
theorem outerArgumentNames_some (outer : TypeTerm) :
    outerArgumentNames (some outer) = (outer.nesting.flatMap arguments).map fullName := by
  induction outer using rec_on_parts with
  | named header declaring parameters arguments hd ha =>
    cases declaring with
    | none => simp [outerArgumentNames, nesting, TypeTerm.arguments, fullNames_eq_map]
    | some outer =>
      rw [outerArgumentNames, hd outer rfl]
      simp [nesting, TypeTerm.arguments, fullNames_eq_map]
  | _ => simp [outerArgumentNames, nesting, TypeTerm.arguments]

/-- **The arguments shown are those along the nesting**, outermost type first. -/
theorem fullName_named (header : TypeHeader) (declaring : Option TypeTerm) (parameters : List Text)
    (arguments : List TypeTerm) :
    fullName (.named header declaring parameters arguments) =
      qualifiedPath (.named header declaring parameters arguments) ++
        argumentBrackets (((TypeTerm.named header declaring parameters arguments).nesting.flatMap
          TypeTerm.arguments).map fullName) := by
  rw [fullName]
  cases declaring with
  | none => simp [outerArgumentNames, nesting, TypeTerm.arguments, fullNames_eq_map]
  | some outer =>
    rw [outerArgumentNames_some]
    simp [nesting, TypeTerm.arguments, fullNames_eq_map]

end TypeTerm

/-! ### Full names without arguments -/

namespace FullName

/-- What follows the last `]` of a text that has one. -/
def afterLastBracket : Text → Option Text
  | [] => none
  | c :: text =>
    match afterLastBracket text with
    | some rest => some rest
    | none => if c = ']' then some text else none

/-- A line without the span from its first `[` to its last `]`; a line where no `]` follows a `[`
stays. -/
def withoutSpan : Text → Text
  | [] => []
  | c :: line =>
    if c = '[' then
      match afterLastBracket line with
      | some rest => rest
      | none => c :: line
    else c :: withoutSpan line

/-- A full name with the bracketed span of each of its lines removed. -/
def withoutArguments (fullName : Text) : Text :=
  Text.unlines ((Text.lines fullName).map withoutSpan)

/-- The name with the arguments removed and a dot for every nesting step. -/
def flatten (fullName : Text) : Text :=
  (withoutArguments fullName).map fun c => if c = '+' then '.' else c

end FullName

end SymbolDocs
