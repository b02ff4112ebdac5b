import SymbolDocs.Identifier.Naming
import SymbolDocs.Proofs.Text.Lines
import SymbolDocs.Proofs.Text.Reading
import SymbolDocs.TypeTerm.FullName
set_option autoImplicit false

/-!
# Flattened full names

Properties, fields and events name their declaring type by its flattened full name, all other
symbols by its written name as a definition. For a named type within named types the two agree.

## Main definitions

* `TypeTerm.isNamed` — whether a term is a named type.
* `TypeTerm.dottedPath` — a namespace and some names with dots between them.
* `TypeTerm.definitionPath` — the namespace and the names along the nesting with dots between them.

## Main results

* `TypeTerm.write_definition` — the written name of a definition is its path.
* `FullName.withoutArguments_append` — what stands before the first bracket stays.
* `TypeTerm.flatten_fullName` — the flattened full name is the path.
-/

namespace SymbolDocs

namespace TypeTerm

/-- Whether a term is a named type. -/
def isNamed : TypeTerm → Bool
  | .named _ _ _ _ => true
  | _ => false

/-- The namespace of the outermost type and the names along the nesting, with dots between them. -/
def definitionPath (type : TypeTerm) : Text :=
  let path := List.intercalate ['.'] (type.nesting.map name)
  match type.outermost.space with
  | [] => path
  | space => space ++ '.' :: path

/-! ### Definitions -/

/-- The nesting of a type is not empty. -/
theorem nesting_ne_nil (type : TypeTerm) : type.nesting ≠ [] := by
  cases type with
  | named header declaring parameters arguments => cases declaring <;> simp [nesting]
  | _ => simp [nesting]

/-- A type is one of its own nesting. -/
theorem mem_nesting_self (type : TypeTerm) : type ∈ type.nesting := by
  cases type with
  | named header declaring parameters arguments => cases declaring <;> simp [nesting]
  | _ => simp [nesting]

/-- The outermost type is one of the nesting. -/
theorem outermost_mem_nesting (type : TypeTerm) : type.outermost ∈ type.nesting := by
  induction type using rec_on_parts with
  | named header declaring parameters arguments ihouter _ =>
    cases declaring with
    | none => simp [outermost, nesting]
    | some outer => simp [outermost, nesting, ihouter outer rfl]
  | _ => simp [outermost, nesting]

/-- Some names with dots between them, behind a namespace that is not empty and a dot. -/
def dottedPath (space : Text) (names : List Text) : Text :=
  let path := List.intercalate ['.'] names
  match space with
  | [] => path
  | space => space ++ '.' :: path

/-- One more name at the end of a list with dots between them. -/
theorem intercalate_append_singleton {names : List Text} (h : names ≠ []) (last : Text) :
    List.intercalate ['.'] (names ++ [last]) = List.intercalate ['.'] names ++ '.' :: last := by
  induction names with
  | nil => exact absurd rfl h
  | cons first rest ih =>
    cases rest with
    | nil => simp [List.intercalate_cons_cons]
    | cons second rest =>
      rw [List.cons_append, List.intercalate_cons_of_ne_nil (by simp), ih (by simp),
        List.intercalate_cons_cons]
      simp

/-- The path of a single name. -/
theorem dottedPath_singleton (space name : Text) :
    dottedPath space [name] = (if space = [] then [] else space ++ ['.']) ++ name := by
  cases space <;> simp [dottedPath]

/-- One more name at the end of a path. -/
theorem dottedPath_append_singleton (space : Text) {names : List Text} (h : names ≠ [])
    (last : Text) : dottedPath space (names ++ [last]) = dottedPath space names ++ '.' :: last := by
  cases space with
  | nil => exact intercalate_append_singleton h last
  | cons c space => simp [dottedPath, intercalate_append_singleton h]

/-- The path of a type that is not nested is its namespace and its name. -/
theorem definitionPath_root (header : TypeHeader) (parameters : List Text)
    (arguments : List TypeTerm) :
    definitionPath (.named header none parameters arguments) =
      (if header.space = [] then [] else header.space ++ ['.']) ++ header.name := by
  have hpath := dottedPath_singleton header.space header.name
  simp only [definitionPath, nesting, outermost]
  exact hpath

/-- The path of a nested type is that of the enclosing type, and its name after a dot. -/
theorem definitionPath_nested (header : TypeHeader) (outer : TypeTerm) (parameters : List Text)
    (arguments : List TypeTerm) :
    definitionPath (.named header (some outer) parameters arguments) =
      outer.definitionPath ++ '.' :: header.name := by
  have hne : outer.nesting.map name ≠ [] := by simpa using nesting_ne_nil outer
  have hpath := dottedPath_append_singleton outer.outermost.space hne header.name
  simp only [definitionPath, nesting, outermost, List.map_append]
  exact hpath

/-- **The written name of a definition is its path**, where the type and all that enclose it are
named. -/
theorem write_definition (scope : GenericScope) {type : TypeTerm}
    (hnamed : ∀ t ∈ type.nesting, t.isNamed = true) :
    Naming.write .definition scope type = .ok type.definitionPath := by
  induction type using rec_on_parts with
  | named header declaring parameters arguments ihouter _ =>
    cases declaring with
    | none =>
      cases hspace : header.space <;>
        simp [Naming.write, Naming.qualifier, definitionPath, outermost, nesting, space,
          TypeTerm.header, name, hspace, bind, Except.bind]
    | some outer =>
      have hwrite := ihouter outer rfl fun t ht => hnamed t (by simp [nesting, ht])
      rw [definitionPath_nested, Naming.write, Naming.qualifier, hwrite]
      simp [bind, Except.bind]
  | _ => simp [nesting, isNamed] at hnamed

end TypeTerm

/-! ### Full names without arguments -/

namespace FullName

/-- What stands before the first bracket stays. -/
theorem withoutArguments_append {before : Text} (h : '[' ∉ before) (rest : Text) :
    withoutArguments (before ++ rest) = before ++ withoutArguments rest := by
  induction before with
  | nil => rfl
  | cons c before ih =>
    obtain ⟨hc, hbefore⟩ := not_or.mp (mt List.mem_cons.mpr h)
    have ih := ih hbefore
    obtain ⟨line, others, hlines⟩ := List.exists_cons_of_ne_nil (Text.lines_ne_nil (before ++ rest))
    simp only [withoutArguments, List.cons_append, Text.lines, hlines] at ih ⊢
    split
    · next hfeed => rw [hfeed, List.map_cons, ← ih]; rfl
    · rw [List.map_cons, withoutSpan, if_neg (Ne.symm hc), ← ih]
      cases others <;> rfl

/-- A bracketed span on one line is removed. -/
theorem withoutArguments_brackets {inner : Text} (h : '\n' ∉ inner) :
    withoutArguments ('[' :: inner ++ [']']) = [] := by
  have hlast : ∀ line : Text, afterLastBracket (line ++ [']']) = some [] := by
    intro line
    induction line with
    | nil => rfl
    | cons c line ih => simp [afterLastBracket, ih]
  have hbrackets : '\n' ∉ '[' :: inner ++ [']'] := by simpa using h
  rw [withoutArguments, Text.lines_of_not_mem hbrackets]
  simp [withoutSpan, hlast, Text.unlines]

end FullName

namespace TypeTerm

/-- A character of a bracketed list of names is a bracket, a comma or a character of a name. -/
theorem mem_argumentBrackets {names : List Text} {c : Char} (h : c ∈ argumentBrackets names) :
    c ∈ ['[', ']', ','] ∨ ∃ name ∈ names, c ∈ name := by
  cases names with
  | nil => exact absurd h List.not_mem_nil
  | cons first rest =>
    simp only [argumentBrackets, List.cons_append, List.mem_cons, List.mem_append,
      List.not_mem_nil, or_false] at h
    rcases h with rfl | h | rfl
    · exact .inl (by simp)
    · rcases Text.mem_of_mem_intercalate h with hcomma | ⟨bracketed, hbracketed, hc⟩
      · exact .inl (by simp at hcomma; simp [hcomma])
      · obtain ⟨name, hname, rfl⟩ := List.mem_map.mp hbracketed
        simp only [List.mem_cons, List.mem_append, List.not_mem_nil, or_false] at hc
        rcases hc with rfl | hc | rfl
        · exact .inl (by simp)
        · exact .inr ⟨name, hname, hc⟩
        · exact .inl (by simp)
    · exact .inl (by simp)

/-- A bracketed list of names is removed where no name holds a line feed. -/
theorem withoutArguments_argumentBrackets {names : List Text} (h : ∀ name ∈ names, '\n' ∉ name) :
    FullName.withoutArguments (argumentBrackets names) = [] := by
  cases names with
  | nil => rfl
  | cons first rest =>
    refine FullName.withoutArguments_brackets fun hfeed => ?_
    have hmem : '\n' ∈ argumentBrackets (first :: rest) :=
      List.mem_append_left _ (List.mem_cons_of_mem '[' hfeed)
    rcases mem_argumentBrackets hmem with hbracket | ⟨name, hname, hin⟩
    · exact absurd hbracket (by decide)
    · exact h name hname hin

/-! ### The two names of a declaring type -/

/-- A text without nesting steps stays when they become dots. -/
theorem map_dot_eq_self {text : Text} (h : '+' ∉ text) :
    (text.map fun c => if c = '+' then '.' else c) = text := by
  induction text with
  | nil => rfl
  | cons c text ih =>
    obtain ⟨hc, htext⟩ := not_or.mp (mt List.mem_cons.mpr h)
    rw [List.map_cons, if_neg (Ne.symm hc), ih htext]

/-- Names joined by nesting steps become names joined by dots. -/
theorem map_dot_intercalate {names : List Text} (h : ∀ name ∈ names, '+' ∉ name) :
    ((List.intercalate ['+'] names).map fun c => if c = '+' then '.' else c) =
      List.intercalate ['.'] names := by
  induction names with
  | nil => rfl
  | cons first rest ih =>
    have hfirst := map_dot_eq_self (h first List.mem_cons_self)
    have hrest := ih fun name hname => h name (List.mem_cons_of_mem first hname)
    cases rest with
    | nil => simpa using hfirst
    | cons second rest =>
      rw [List.intercalate_cons_cons, List.intercalate_cons_cons, List.map_append,
        List.map_append, hfirst, hrest]
      rfl

/-- The names along the nesting, with nesting steps turned into dots, are the path of the
definition. -/
theorem map_dot_qualifiedPath {type : TypeTerm} (hnames : ∀ t ∈ type.nesting, '+' ∉ t.name)
    (hspace : '+' ∉ type.outermost.space) :
    (type.qualifiedPath.map fun c => if c = '+' then '.' else c) = type.definitionPath := by
  have hplus : ∀ text ∈ type.nesting.map name, '+' ∉ text := by simpa using hnames
  have hpath := map_dot_intercalate hplus
  simp only [qualifiedPath, definitionPath]
  cases hcases : type.outermost.space with
  | nil => exact hpath
  | cons c space =>
    rw [hcases] at hspace
    have hdot : (if '.' = '+' then '.' else '.') = '.' := rfl
    simp only [List.map_append, List.map_cons, map_dot_eq_self hspace, hpath, hdot]

/-- A character that stands in no name along the nesting, and not between them either, is none of
the qualified path. -/
theorem not_mem_qualifiedPath {type : TypeTerm} {c : Char} (hstep : c ≠ '+') (hdot : c ≠ '.')
    (hnames : ∀ t ∈ type.nesting, c ∉ t.name) (hspace : c ∉ type.outermost.space) :
    c ∉ type.qualifiedPath := by
  have hpath : c ∉ List.intercalate ['+'] (type.nesting.map name) := fun hmem => by
    rcases Text.mem_of_mem_intercalate hmem with hmem | ⟨text, htext, hin⟩
    · exact hstep (List.mem_singleton.mp hmem)
    · obtain ⟨t, ht, rfl⟩ := List.mem_map.mp htext
      exact hnames t ht hin
  simp only [qualifiedPath]
  cases hcases : type.outermost.space with
  | nil => exact hpath
  | cons first space =>
    rw [hcases] at hspace
    intro hmem
    rcases List.mem_append.mp hmem with hmem | hmem
    · exact hspace hmem
    · rcases List.mem_cons.mp hmem with hmem | hmem
      · exact hdot hmem
      · exact hpath hmem

/-- **The flattened full name of a named type is the path of its definition**, whatever its generic
arguments.

**Proof sketch.** No bracket stands in the names along the nesting, so the first bracket of the full
name opens the list of arguments. That list ends the name and holds no line feed, so it is removed
as a whole, and what is left are the names along the nesting. -/
theorem flatten_fullName {type : TypeTerm} (hnamed : type.isNamed = true)
    (hnames : ∀ t ∈ type.nesting, '[' ∉ t.name ∧ '+' ∉ t.name)
    (hspace : '[' ∉ type.outermost.space ∧ '+' ∉ type.outermost.space)
    (harguments : ∀ t ∈ type.nesting.flatMap arguments, '\n' ∉ t.fullName) :
    FullName.flatten type.fullName = type.definitionPath := by
  cases type with
  | named header declaring parameters arguments =>
    have hbrackets := not_mem_qualifiedPath (c := '[') (by decide) (by decide)
      (fun t ht => (hnames t ht).1) hspace.1
    have hlist := withoutArguments_argumentBrackets (List.forall_mem_map.mpr harguments)
    rw [fullName_named, FullName.flatten, FullName.withoutArguments_append hbrackets, hlist,
      List.append_nil, map_dot_qualifiedPath (fun t ht => (hnames t ht).2) hspace.2]
  | _ => exact absurd hnamed Bool.false_ne_true

end TypeTerm

end SymbolDocs
