import SymbolDocs.TypeTerm.Basic
set_option autoImplicit false

/-!
# Members and symbols

A member is a method, a constructor, a property, a field or an event of a declaring type. A symbol
is a type or a member.

## Main definitions

* `Parameter`, `Method`, `Constructor`, `PlainMember`, `Member` — the members.
* `SymbolKind` — what an identifier names, with the letter that opens it.
* `Symbol` — a type or a member.
-/

namespace SymbolDocs

/-! ### Members -/

/-- A parameter of a method or constructor. -/
structure Parameter where
  /-- The name of the parameter. -/
  name : Text
  /-- The type of the parameter. -/
  type : TypeTerm
  deriving DecidableEq, Repr

/-- A method. `returns` is the type of the result, absent for a method that returns nothing. -/
structure Method where
  /-- The name of the method. -/
  name : Text
  /-- The type that declares the method. -/
  declaring : TypeTerm
  /-- The generic parameters the method declares itself. -/
  generics : List Text := []
  /-- The parameters in order. -/
  parameters : List Parameter := []
  /-- The type of the result. -/
  returns : Option TypeTerm := none
  deriving DecidableEq, Repr

/-- A constructor; it is never generic on its own. -/
structure Constructor where
  /-- The type that declares the constructor. -/
  declaring : TypeTerm
  /-- The parameters in order. -/
  parameters : List Parameter := []
  deriving DecidableEq, Repr

/-- A property, a field or an event: a name on a declaring type. -/
structure PlainMember where
  /-- The name of the member. -/
  name : Text
  /-- The type that declares the member. -/
  declaring : TypeTerm
  deriving DecidableEq, Repr

/-- A member of a type. -/
inductive Member where
  /-- A method. -/
  | method (method : Method)
  /-- A constructor. -/
  | constructor (constructor : Constructor)
  /-- A property. -/
  | property (member : PlainMember)
  /-- A field. -/
  | field (member : PlainMember)
  /-- An event. -/
  | event (member : PlainMember)
  deriving DecidableEq, Repr

/-- A conversion operator: the one method whose identifier names its result. -/
def Method.isConversion (method : Method) : Bool :=
  method.name = "op_Implicit".toList || method.name = "op_Explicit".toList

/-- A method with one more parameter at the end. -/
def Method.addParameter (method : Method) (name : Text) (type : TypeTerm) : Method :=
  { method with parameters := method.parameters ++ [⟨name, type⟩] }

/-- A constructor with one more parameter at the end. -/
def Constructor.addParameter (constructor : Constructor) (name : Text) (type : TypeTerm) :
    Constructor :=
  { constructor with parameters := constructor.parameters ++ [⟨name, type⟩] }

/-- The name every constructor goes by. -/
def Constructor.name : Text :=
  "#ctor".toList

namespace Member

/-- The name of a member. -/
def name : Member → Text
  | .method m => m.name
  | .constructor _ => Constructor.name
  | .property p => p.name
  | .field f => f.name
  | .event e => e.name

/-- The type that declares a member. -/
def declaring : Member → TypeTerm
  | .method m => m.declaring
  | .constructor c => c.declaring
  | .property p => p.declaring
  | .field f => f.declaring
  | .event e => e.declaring

/-- The parameters of a member; only methods and constructors have any. -/
def parameters : Member → List Parameter
  | .method m => m.parameters
  | .constructor c => c.parameters
  | _ => []

end Member

/-! ### Symbols -/

/-- What an identifier names. Constructors count as methods. -/
inductive SymbolKind where
  /-- A type. -/
  | type
  /-- A method or a constructor. -/
  | method
  /-- A property. -/
  | property
  /-- A field. -/
  | field
  /-- An event. -/
  | event
  deriving DecidableEq, Repr

/-- The letter and colon that open an identifier of a kind. -/
def SymbolKind.opening : SymbolKind → Text
  | .type => "T:".toList
  | .method => "M:".toList
  | .property => "P:".toList
  | .field => "F:".toList
  | .event => "E:".toList

/-- A documented thing: a type or a member. -/
inductive Symbol where
  /-- A type. -/
  | type (type : TypeTerm)
  /-- A member. -/
  | member (member : Member)
  deriving DecidableEq, Repr

/-- The kind of a symbol. -/
def Symbol.kind : Symbol → SymbolKind
  | .type _ => .type
  | .member (.method _) => .method
  | .member (.constructor _) => .method
  | .member (.property _) => .property
  | .member (.field _) => .field
  | .member (.event _) => .event

end SymbolDocs
