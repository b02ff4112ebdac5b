import Mathlib.Data.List.Dedup
import SymbolDocs.Proofs.Outcome
import SymbolDocs.Proofs.TypeTerm.Flatten
set_option autoImplicit false

/-!
# The numbering of generic parameters

The generic parameters along the nesting of a type are numbered through, the outermost type first,
and those of a method on their own. A name that is declared more than once has the number of its
last declaration.

A type without generic arguments lists its own parameters where it is written in a signature. Where
all names along its nesting are different, each type of the nesting lists consecutive numbers, which
go on where those of the enclosing type end.

## Main definitions

* `StandsLast` — the position at which a name stands last in a list.
* `GenericLevel.Numbers`, `GenericScope.Numbers` — levels and scopes that number some names.
* `TypeTerm.declaredAlong` — the names declared along the nesting of a type.
* `Naming.segmentsFrom` — the written names of some types with their parameters numbered through.

## Main results

* `GenericLevel.numbers_ofNames` — a level numbers the names that it declares.
* `GenericScope.numbers_forType`, `GenericScope.numbers_forMethod` — the same for scopes.
* `Naming.write_signature_open` — a type without arguments is written type by type along its
  nesting.
* `GenericScope.numbered_along_nesting` — how references are numbered and written.

## Design

What a level is, its positions say, not the order in which it keeps them: a name that is declared
again keeps its place in the level and takes the new position.
-/

namespace SymbolDocs

open Naming

/-! ### Last positions -/

/-- A name stands at a position of a list, and nowhere behind it. -/
structure StandsLast (names : List Text) (name : Text) (position : Nat) : Prop where
  /-- The name stands at the position. -/
  here : names[position]? = some name
  /-- The name stands nowhere behind the position. -/
  not_later : ∀ later, position < later → names[later]? ≠ some name

/-- The last name of a list stands last at the end. -/
theorem standsLast_concat_self {names : List Text} {name : Text} {position : Nat} :
    StandsLast (names ++ [name]) name position ↔ position = names.length := by
  constructor
  · rintro ⟨here, not_later⟩
    have hlt := (List.getElem?_eq_some_iff.mp here).1
    have hle : ¬ position < names.length := fun hbefore =>
      not_later names.length hbefore List.getElem?_concat_length
    rw [List.length_append, List.length_singleton] at hlt
    omega
  · rintro rfl
    refine ⟨List.getElem?_concat_length, fun later hlater => ?_⟩
    rw [List.getElem?_eq_none (by simpa using Nat.succ_le_of_lt hlater)]
    exact nofun

/-- Another name stands last where it does without the last name. -/
theorem standsLast_concat_of_ne {names : List Text} {name last : Text} {position : Nat}
    (h : name ≠ last) :
    StandsLast (names ++ [last]) name position ↔ StandsLast names name position := by
  have hsame (index : Nat) :
      (names ++ [last])[index]? = some name ↔ names[index]? = some name := by
    rcases Nat.lt_trichotomy index names.length with hlt | rfl | hgt
    · rw [List.getElem?_append_left hlt]
    · simp [Ne.symm h]
    · rw [List.getElem?_eq_none (by simpa using Nat.succ_le_of_lt hgt),
        List.getElem?_eq_none (Nat.le_of_lt hgt)]
  have hother : (∀ later, position < later → (names ++ [last])[later]? ≠ some name) ↔
      ∀ later, position < later → names[later]? ≠ some name := by
    simp only [ne_eq, hsame]
  exact ⟨fun ⟨here, later⟩ => ⟨(hsame position).mp here, hother.mp later⟩,
    fun ⟨here, later⟩ => ⟨(hsame position).mpr here, hother.mpr later⟩⟩

/-- Where no name stands twice, every name stands last where it stands. -/
theorem standsLast_of_nodup {before after : List Text} {name : Text}
    (h : (before ++ name :: after).Nodup) :
    StandsLast (before ++ name :: after) name before.length := by
  refine ⟨by simp, fun later hlater hsame => ?_⟩
  have hhere : (before ++ name :: after)[before.length]? = some name := by simp
  have hbound : before.length < (before ++ name :: after).length := by simp
  exact absurd ((List.getElem?_inj hbound h).mp (hhere.trans hsame.symm)) (Nat.ne_of_lt hlater)

/-! ### Levels -/

namespace GenericLevel

/-- A level numbers a list of names: a name has the position at which it stands last in the list, a
name that does not stand in it has none, and the size is the number of distinct names. -/
structure Numbers (level : GenericLevel) (names : List Text) : Prop where
  /-- A name has the position at which it stands last. -/
  position_iff : ∀ name position,
    level.position? name = some position ↔ StandsLast names name position
  /-- A name has no position where it does not stand in the list. -/
  none_iff : ∀ name, level.position? name = none ↔ name ∉ names
  /-- The size is the number of distinct names. -/
  size_eq : level.size = names.dedup.length

/-- **One more declaration is one more name**, numbered with the number of names before it. -/
theorem Numbers.declare {level : GenericLevel} {names : List Text} (h : level.Numbers names)
    (name : Text) : (level.declare name names.length).Numbers (names ++ [name]) where
  position_iff other position := by
    rw [position?_declare]
    by_cases hname : other = name
    · subst hname
      rw [if_pos rfl, Option.some.injEq, standsLast_concat_self, eq_comm]
    · rw [if_neg hname, h.position_iff, standsLast_concat_of_ne hname]
  none_iff other := by
    rw [position?_declare]
    by_cases hname : other = name
    · simp [hname]
    · simp [hname, h.none_iff]
  size_eq := by
    have hcount : (names ++ [name]).dedup.length = (name :: names).dedup.length :=
      (List.perm_append_singleton name names).dedup.length_eq
    rw [size_declare, h.size_eq, hcount]
    by_cases hname : name ∈ names
    · rw [List.dedup_cons_of_mem hname, if_neg (by simpa [h.none_iff] using hname)]
    · rw [List.dedup_cons_of_notMem hname, if_pos ((h.none_iff name).mpr hname), List.length_cons]

/-- Further declarations number the names that they declare behind those before them. -/
theorem Numbers.declareAll {level : GenericLevel} {names : List Text} (h : level.Numbers names)
    (rest : List Text) : (level.declareAll names.length rest).Numbers (names ++ rest) := by
  induction rest generalizing level names with
  | nil => simpa [GenericLevel.declareAll] using h
  | cons name rest ih =>
    have hrest := ih (h.declare name)
    rw [List.length_append, List.append_assoc] at hrest
    exact hrest

/-- **A level numbers the names that it declares.** -/
theorem numbers_ofNames (names : List Text) : (ofNames names).Numbers names := by
  have hempty : ({} : GenericLevel).Numbers [] :=
    ⟨fun _ _ => ⟨nofun, nofun⟩, by simp [position?], rfl⟩
  exact hempty.declareAll names

end GenericLevel

/-! ### Scopes -/

namespace GenericScope

/-- A scope numbers the names that a member declares itself and those along the nesting of its type.
A reference to a name of the member is written with its number there, behind two backticks, a
reference to another name along the nesting with its number there, behind one. -/
structure Numbers (scope : GenericScope) (own along : List Text) : Prop where
  /-- The names of the member are numbered on their own. -/
  ofMember : scope.ofMember.Numbers own
  /-- The names along the nesting are numbered through. -/
  ofType : scope.ofType.Numbers along
  /-- A reference to a name of the member. -/
  reference_own : ∀ name position, StandsLast own name position →
    scope.reference name = .ok ("``".toList ++ Text.ofNat position)
  /-- A reference to a name along the nesting that no name of the member hides. -/
  reference_along : ∀ name position, name ∉ own → StandsLast along name position →
    scope.reference name = .ok ("`".toList ++ Text.ofNat position)
  /-- A reference to a name that is declared nowhere. -/
  reference_none : ∀ name, name ∉ own → name ∉ along →
    scope.reference name = .error (.unresolvedParameter name)

/-- A scope whose levels number some names writes references with these numbers. -/
theorem numbers_of_levels {scope : GenericScope} {own along : List Text}
    (hown : scope.ofMember.Numbers own) (halong : scope.ofType.Numbers along) :
    scope.Numbers own along where
  ofMember := hown
  ofType := halong
  reference_own name position h := by
    rw [reference, (hown.position_iff name position).mpr h]
  reference_along name position hhidden h := by
    rw [reference, (hown.none_iff name).mpr hhidden, (halong.position_iff name position).mpr h]
  reference_none name hhidden h := by
    rw [reference, (hown.none_iff name).mpr hhidden, (halong.none_iff name).mpr h]

end GenericScope

/-- The names declared along the nesting of a type, those of the outermost type first. -/
def TypeTerm.declaredAlong (type : TypeTerm) : List Text :=
  type.nesting.flatMap parameters

namespace GenericScope

/-- **The scope of a type numbers the names along its nesting.** -/
theorem numbers_forType (type : TypeTerm) : (forType type).Numbers [] type.declaredAlong :=
  numbers_of_levels (GenericLevel.numbers_ofNames []) (GenericLevel.numbers_ofNames _)

/-- **The scope of a method numbers its own names and those along the nesting of its type.** -/
theorem numbers_forMethod (method : Method) :
    (forMethod method).Numbers method.generics method.declaring.declaredAlong :=
  numbers_of_levels (GenericLevel.numbers_ofNames _) (GenericLevel.numbers_ofNames _)

end GenericScope

/-! ### Types without arguments -/

namespace Naming

/-- The references to some consecutive parameters along a nesting. -/
def referencesFrom (first count : Nat) : List Text :=
  (List.range' first count).map fun position => "`".toList ++ Text.ofNat position

/-- The written names of some types without arguments, one within the other. Each is its name
without arity marks and the list of its own parameters, which are numbered through from `first`. -/
def segmentsFrom (first : Nat) : List TypeTerm → List Text
  | [] => []
  | type :: rest =>
    (withoutArity type.name ++ braces (referencesFrom first type.parameters.length)) ::
      segmentsFrom (first + type.parameters.length) rest

/-- What is written for a type without arguments behind the types that enclose it. -/
def segment (scope : GenericScope) (type : TypeTerm) : Except IdentifierError Text :=
  (type.parameters.mapM scope.reference).map fun listed =>
    withoutArity type.name ++ braces listed

/-- A named type without arguments is written as its segment behind its enclosing type or its
namespace. -/
theorem write_named_open (scope : GenericScope) (header : TypeHeader) (declaring : Option TypeTerm)
    (parameters : List Text) :
    write .signature scope (.named header declaring parameters []) =
      qualifier .signature scope header.space declaring >>= fun outer =>
        (segment scope (.named header declaring parameters [])).map (outer ++ ·) := by
  rw [write_named_signature, listing, if_pos rfl, segment, TypeTerm.parameters]
  refine congrArg _ (funext fun outer => ?_)
  cases parameters.mapM scope.reference with
  | error error => rfl
  | ok listed => exact congrArg Except.ok (List.append_assoc _ _ _)

/-- **A type without arguments is written type by type along its nesting**, where all of these are
named types without arguments.

**Proof sketch.** By induction on the type. Behind the enclosing type, which is written first, stand
a dot and the segment of the type. -/
theorem write_signature_open (scope : GenericScope) {type : TypeTerm}
    (h : ∀ t ∈ type.nesting, t.isNamed = true ∧ t.arguments = []) :
    write .signature scope type =
      (type.nesting.mapM (segment scope)).map (TypeTerm.dottedPath type.outermost.space) := by
  induction type using TypeTerm.rec_on_parts with
  | named header declaring parameters arguments ihouter _ =>
    obtain ⟨-, rfl⟩ : _ ∧ arguments = [] := h _ (TypeTerm.mem_nesting_self _)
    rw [write_named_open]
    cases declaring with
    | none =>
      have hnesting : (TypeTerm.named header none parameters []).nesting =
          [] ++ [.named header none parameters []] := by simp [TypeTerm.nesting]
      rw [qualifier_none, hnesting, mapM_append_singleton]
      cases segment scope (.named header none parameters []) with
      | error error => rfl
      | ok name => exact congrArg _ (TypeTerm.dottedPath_singleton header.space name).symm
    | some outer =>
      have hwrite := ihouter outer rfl fun t ht => h t (by simp [TypeTerm.nesting, ht])
      rw [qualifier_some, hwrite, TypeTerm.nesting, mapM_append_singleton]
      cases hnames : outer.nesting.mapM (segment scope) with
      | error error => rfl
      | ok names =>
        cases segment scope (.named header (some outer) parameters []) with
        | error error => rfl
        | ok name =>
          have hne : names ≠ [] := mapM_ne_nil (TypeTerm.nesting_ne_nil outer) hnames
          refine congrArg Except.ok ?_
          rw [TypeTerm.outermost, TypeTerm.dottedPath_append_singleton _ hne]
          simp
  | _ => simp [TypeTerm.nesting, TypeTerm.isNamed] at h

/-- Names that are declared along a nesting without repetition are referred to by consecutive
numbers. -/
theorem mapM_reference_of_nodup {scope : GenericScope} {before names after : List Text}
    (hscope : scope.Numbers [] (before ++ names ++ after)) (h : (before ++ names ++ after).Nodup) :
    names.mapM scope.reference = .ok (referencesFrom before.length names.length) := by
  induction names generalizing before with
  | nil => rfl
  | cons name names ih =>
    have hsplit : before ++ name :: names ++ after = before ++ [name] ++ names ++ after := by simp
    have hlast : StandsLast (before ++ name :: names ++ after) name before.length := by
      rw [List.append_assoc, List.cons_append] at h ⊢
      exact standsLast_of_nodup h
    have hfirst := hscope.reference_along name before.length List.not_mem_nil hlast
    rw [hsplit] at hscope h
    have hrest := ih hscope h
    rw [List.length_append, List.length_singleton] at hrest
    have hfrom : referencesFrom before.length (name :: names).length =
        ("`".toList ++ Text.ofNat before.length) ::
          referencesFrom (before.length + 1) names.length := by
      rw [referencesFrom, List.length_cons, List.range'_succ]
      rfl
    rw [List.mapM_cons, hfirst, hrest, hfrom]
    rfl

/-- The types of a chain that declares names without repetition are written with their parameters
numbered through. -/
theorem mapM_segment_of_nodup {scope : GenericScope} {before : List Text} {chain : List TypeTerm}
    (hscope : scope.Numbers [] (before ++ chain.flatMap TypeTerm.parameters))
    (h : (before ++ chain.flatMap TypeTerm.parameters).Nodup) :
    chain.mapM (segment scope) = .ok (segmentsFrom before.length chain) := by
  induction chain generalizing before with
  | nil => rfl
  | cons type chain ih =>
    rw [List.flatMap_cons, ← List.append_assoc] at hscope h
    have hlisted := mapM_reference_of_nodup hscope h
    have hrest := ih hscope h
    rw [List.length_append] at hrest
    rw [List.mapM_cons, segment, hlisted, hrest]
    rfl

end Naming

namespace GenericScope

/-- **Generic parameters are numbered along the nesting.** The scope of a type numbers the names
declared along its nesting, the outermost type first; that of a method numbers besides, on their
own, the names that the method declares; and that of a constructor is that of its declaring type.
References are written with these numbers.

Hence a named type within named types, all without generic arguments and with different names for
all their parameters, is always written in a signature. Behind the name of each type stand the
references to its own parameters, numbered through from zero along the nesting. -/
theorem numbered_along_nesting :
    (∀ type, (forType type).Numbers [] type.declaredAlong) ∧
    (∀ method, (forMethod method).Numbers method.generics method.declaring.declaredAlong) ∧
    (∀ constructor : Constructor,
      (forConstructor constructor).Numbers [] constructor.declaring.declaredAlong) ∧
    ∀ type : TypeTerm, (∀ t ∈ type.nesting, t.isNamed = true ∧ t.arguments = []) →
      type.declaredAlong.Nodup →
        write .signature (forType type) type =
          .ok (TypeTerm.dottedPath type.outermost.space (segmentsFrom 0 type.nesting)) ∧
        ∀ before t after, type.nesting = before ++ t :: after →
          t.parameters.mapM (forType type).reference =
            .ok (referencesFrom (before.flatMap TypeTerm.parameters).length
              t.parameters.length) := by
  refine ⟨numbers_forType, numbers_forMethod, fun constructor => numbers_forType _,
    fun type hopen hnodup => ⟨?_, fun before t after hsplit => ?_⟩⟩
  · have hscope : (forType type).Numbers [] ([] ++ type.declaredAlong) := numbers_forType type
    have hsegments : type.nesting.mapM (segment (forType type)) =
        .ok (segmentsFrom 0 type.nesting) :=
      mapM_segment_of_nodup hscope hnodup
    rw [write_signature_open _ hopen, hsegments]
    rfl
  · have hnames : type.declaredAlong = before.flatMap TypeTerm.parameters ++ t.parameters ++
        after.flatMap TypeTerm.parameters := by
      simp [TypeTerm.declaredAlong, hsplit]
    have hscope := numbers_forType type
    rw [hnames] at hscope hnodup
    exact mapM_reference_of_nodup hscope hnodup

/-- The type `Pair<U, V>` inside `Sample.Outer<T>`. -/
def openPair : TypeTerm :=
  .named { name := "Pair`2".toList, space := "Sample".toList }
    (some (.named { name := "Outer`1".toList, space := "Sample".toList } none ["T".toList] []))
    ["U".toList, "V".toList] []

/-- The parameters of the inner type are numbered on from that of the outer one. -/
theorem numbered_along_nesting_openPair :
    (∀ t ∈ openPair.nesting, t.isNamed = true ∧ t.arguments = []) ∧
      openPair.declaredAlong.Nodup ∧
      write .signature (forType openPair) openPair =
        .ok "Sample.Outer\x7b`0\x7d.Pair\x7b`1,`2\x7d".toList := by
  have hopen : ∀ t ∈ openPair.nesting, t.isNamed = true ∧ t.arguments = [] := by decide
  have hnodup : openPair.declaredAlong.Nodup := by decide
  exact ⟨hopen, hnodup, (numbered_along_nesting.2.2.2 openPair hopen hnodup).1⟩

end GenericScope

end SymbolDocs
