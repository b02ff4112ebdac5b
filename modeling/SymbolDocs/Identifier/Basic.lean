import SymbolDocs.Identifier.Naming
import SymbolDocs.TypeTerm.FullName
set_option autoImplicit false

/-!
# Documentation identifiers

An identifier is the opening of its kind (`T:`, `M:`, `P:`, `F:` or `E:`) and the qualified name of
the symbol:

```text
T:Sample.Box`1
M:Sample.Box`1.Map``1(System.Func{`0,``0})
M:Sample.Widget.#ctor(System.String)
M:Sample.Widget.op_Implicit(System.Int32)~Sample.Widget
P:Sample.Outer.Inner.Count
```

## Main definitions

* `Identifier.ofType`, `Identifier.ofMethod`, `Identifier.ofConstructor`,
  `Identifier.ofPlainMember` — the identifiers of the kinds of symbols.
* `Identifier.ofMember`, `Identifier.ofSymbol` — the identifier of any member or symbol.

## Design

Methods and constructors write their declaring type as a definition. Properties, fields and events
use its full name without arguments, and so always have an identifier.
-/

namespace SymbolDocs

namespace Identifier

open Naming

/-- The parameter list of a signature: nothing for no parameter, not even parentheses. -/
def signature (scope : GenericScope) : List Parameter → Except IdentifierError Text
  | [] => .ok []
  | parameters => do
    let names ← parameters.mapM fun parameter => write .signature scope parameter.type
    .ok ('(' :: commaSeparated names ++ [')'])

/-- The number of generic parameters of a method, written after two backticks; nothing for none. -/
def genericArity : List Text → Text
  | [] => []
  | names => "``".toList ++ Text.ofNat names.length

/-- The result of a conversion operator; nothing for any other method. -/
def conversionResult (scope : GenericScope) (method : Method) : Except IdentifierError Text :=
  if method.isConversion then
    match method.returns with
    | none => .error (.conversionWithoutResult method.name)
    | some type => do
      let name ← write .signature scope type
      .ok ('~' :: name)
  else .ok []

/-- The identifier of a type. -/
def ofType (type : TypeTerm) : Except IdentifierError Text := do
  let name ← write .definition (.forType type) type
  .ok (SymbolKind.type.opening ++ name)

/-- The identifier of a method. -/
def ofMethod (method : Method) : Except IdentifierError Text := do
  let scope := GenericScope.forMethod method
  let declaring ← write .definition scope method.declaring
  let parameters ← signature scope method.parameters
  let result ← conversionResult scope method
  .ok (SymbolKind.method.opening ++ declaring ++ '.' :: method.name ++
    genericArity method.generics ++ parameters ++ result)

/-- The identifier of a constructor. -/
def ofConstructor (constructor : Constructor) : Except IdentifierError Text := do
  let scope := GenericScope.forConstructor constructor
  let declaring ← write .definition scope constructor.declaring
  let parameters ← signature scope constructor.parameters
  .ok (SymbolKind.method.opening ++ declaring ++ '.' :: Constructor.name ++ parameters)

/-- The identifier, under a given kind, of a member known by its name and declaring type alone. -/
def ofPlainMember (kind : SymbolKind) (member : PlainMember) : Text :=
  kind.opening ++ FullName.flatten member.declaring.fullName ++ '.' :: member.name

/-- The identifier of a member. -/
def ofMember : Member → Except IdentifierError Text
  | .method method => ofMethod method
  | .constructor constructor => ofConstructor constructor
  | .property property => .ok (ofPlainMember .property property)
  | .field field => .ok (ofPlainMember .field field)
  | .event event => .ok (ofPlainMember .event event)

/-- The identifier of a symbol. -/
def ofSymbol : Symbol → Except IdentifierError Text
  | .type type => ofType type
  | .member member => ofMember member

end Identifier

end SymbolDocs
