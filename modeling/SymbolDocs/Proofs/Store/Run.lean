import SymbolDocs.Store.Query
set_option autoImplicit false

/-!
# Runs of a store

A store serves requests one after the other, each at a moment at which the files may be anything.
What it holds is what its requests have made of it since it was created.

## Main definitions

* `Query`, `Request`, `Response` — what a store is asked, and what it says.
* `Store.serve` — the response to a request, and the store left behind.
* `Store.run` — the responses to a history of requests, and the store left behind.
* `Store.Reachable` — the stores that some history leaves behind.

## Main results

* `Store.run_append` — a longer history is served from where the shorter one ended.
-/

namespace SymbolDocs

/-! ### Requests -/

/-- What a store can be asked without being changed. -/
inductive Query where
  /-- The body of a member. -/
  | lookup (name : Text)
  /-- Whether a member is documented. -/
  | contains (name : Text)
  /-- The number of documented members. -/
  | size
  /-- The number of sources taken in. -/
  | parses
  /-- Whether a source has been taken in. -/
  | isLoaded (source : Text)
  /-- The documentation of a symbol. -/
  | documentation (symbol : Symbol)
  /-- The documentation of a member. -/
  | memberDocumentation (member : Member)
  /-- The note on a parameter of a member. -/
  | parameterDocumentation (member : Member) (parameter : Text)

/-- The answer to a query. -/
inductive Answer where
  /-- A body, if there is one. -/
  | body (body : Option Text)
  /-- A truth. -/
  | truth (holds : Bool)
  /-- A number. -/
  | number (n : Nat)
  /-- The documentation of a symbol that has an identifier. -/
  | documentation (result : Except IdentifierError (Option Text))

/-- What a store can be asked to do. -/
inductive Request where
  /-- To load a file. -/
  | loadFile (path : Path)
  /-- To load a text under a label. -/
  | loadText (label text : Text)
  /-- To load the documentation beside a unit. -/
  | loadForOwner (owner : Path)
  /-- To become as it was at first. -/
  | clear
  /-- To answer a query. -/
  | query (query : Query)

/-- What a store says to a request. -/
inductive Response where
  /-- The outcome of a loading. -/
  | loaded (outcome : Except LoadError Unit)
  /-- Nothing but that it is done. -/
  | cleared
  /-- An answer. -/
  | answered (answer : Answer)

/-- Whether a response says that a loading has failed. -/
def Response.isFailure : Response → Bool
  | .loaded (.error _) => true
  | _ => false

/-- A response that says that a loading has failed names an error. -/
theorem Response.exists_of_isFailure {response : Response} (h : response.isFailure = true) :
    ∃ error, response = .loaded (.error error) := by
  cases response with
  | loaded outcome =>
    cases outcome with
    | error error => exact ⟨error, rfl⟩
    | ok done => exact absurd h Bool.false_ne_true
  | _ => exact absurd h Bool.false_ne_true

namespace Store

/-! ### Serving requests -/

/-- The answer to a query. -/
def answer (store : Store) (files : FileView) : Query → Answer
  | .lookup name => .body (store.lookup name)
  | .contains name => .truth (store.contains name)
  | .size => .number store.size
  | .parses => .number store.parses
  | .isLoaded source => .truth (store.isLoaded files source)
  | .documentation symbol => .documentation (store.documentation symbol)
  | .memberDocumentation member => .documentation (store.memberDocumentation member)
  | .parameterDocumentation member parameter =>
    .documentation (store.parameterDocumentation member parameter)

/-- The response to a request, and the store left behind. -/
def serve (store : Store) (files : FileView) : Request → Response × Store
  | .loadFile path =>
    let (outcome, left) := store.loadFile files path
    (.loaded outcome, left)
  | .loadText label text =>
    let (outcome, left) := store.loadText label text
    (.loaded outcome, left)
  | .loadForOwner owner =>
    let (outcome, left) := store.loadForOwner files owner
    (.loaded outcome, left)
  | .clear => (.cleared, store.clear)
  | .query query => (.answered (store.answer files query), store)

/-- The responses to a history of requests, each with the files at its moment, and the store left
behind. -/
def run (store : Store) : List (FileView × Request) → List Response × Store
  | [] => ([], store)
  | (files, request) :: later =>
    let (response, next) := store.serve files request
    let (responses, last) := next.run later
    (response :: responses, last)

/-- The stores that some history of requests leaves behind. -/
def Reachable (settings : StoreSettings) (store : Store) : Prop :=
  ∃ history, ((empty settings).run history).2 = store

/-- A request is served before those that follow it. -/
theorem run_cons (store : Store) (files : FileView) (request : Request)
    (later : List (FileView × Request)) :
    store.run ((files, request) :: later) =
      ((store.serve files request).1 :: ((store.serve files request).2.run later).1,
        ((store.serve files request).2.run later).2) :=
  rfl

/-- **A longer history is served from where the shorter one ended.** -/
theorem run_append (store : Store) (earlier later : List (FileView × Request)) :
    store.run (earlier ++ later) =
      ((store.run earlier).1 ++ ((store.run earlier).2.run later).1,
        ((store.run earlier).2.run later).2) := by
  induction earlier generalizing store with
  | nil => rfl
  | cons first earlier ih =>
    obtain ⟨files, request⟩ := first
    rw [List.cons_append, run_cons, ih, run_cons]
    rfl

end Store

end SymbolDocs
