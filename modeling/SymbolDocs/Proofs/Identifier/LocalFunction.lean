import SymbolDocs.Proofs.Catalog.Visited
import SymbolDocs.Proofs.Text.FirstOccurrence
import SymbolDocs.Proofs.Text.Lines
set_option autoImplicit false

/-!
# Names of local functions

A name is that of a local function exactly where it can be taken apart into the parts of one, in any
way at all. The part between the mark `g__` and the ordinal may hold both of them again, so that a
name can have many such forms, and one is enough.

## Main definitions

* `LocalFunction.HasForm` — the parts of the name of a local function.
* `LocalFunction.IsLocalName` — a name that has such parts.
* `SymbolSource.withoutLocalFunctions` — a source without its local functions.
* `LocalFunction.keptSymbols` — the symbols of a source that are left without local functions.

## Main results

* `LocalFunction.isOrdinal_iff`, `LocalFunction.hasOrdinal_iff` — where an ordinal stands.
* `LocalFunction.isLocalLine_iff` — the first mark of a line is as good as any other.
* `LocalFunction.isLocalFunction_iff_isLocalName` — local functions are told by their parts.
* `LocalFunction.visited_eq_keptSymbols` — a catalog that skips local functions visits what is left.
* `LocalFunction.skips_exactly_local_names` — which members a catalog skips.
-/

namespace SymbolDocs

namespace LocalFunction

/-- A text of decimal digits, at least one. -/
def IsNumber (text : Text) : Prop :=
  text ≠ [] ∧ ∀ c ∈ text, Text.isDigit c = true

/-- The parts of the name of a local function: the mark `g__`, at least one character on the same
line, a bar, a number, an underscore and a number, with any text around them. -/
structure HasForm (name before inner ordinal index after : Text) : Prop where
  /-- The parts make up the name. -/
  name_eq : name = before ++ "g__".toList ++ inner ++ '|' :: ordinal ++ '_' :: index ++ after
  /-- Something stands between the mark and the bar. -/
  inner_ne_nil : inner ≠ []
  /-- It stands on one line. -/
  one_line : '\n' ∉ inner
  /-- A number stands behind the bar. -/
  isNumber_ordinal : IsNumber ordinal
  /-- A number stands behind the underscore. -/
  isNumber_index : IsNumber index

/-- A name that has the parts of the name of a local function, in at least one way. -/
def IsLocalName (name : Text) : Prop :=
  ∃ before inner ordinal index after, HasForm name before inner ordinal index after

/-! ### Ordinals -/

/-- Digits before a character that is none are read as a whole. -/
theorem digitRun_append {digits : Text} {c : Char} (h : ∀ d ∈ digits, Text.isDigit d = true)
    (hc : Text.isDigit c = false) (rest : Text) :
    Text.digitRun (digits ++ c :: rest) = (digits, c :: rest) := by
  have hstop : ¬ Text.isDigit c = true := by simp [hc]
  rw [Text.digitRun, List.takeWhile_append_of_pos h, List.dropWhile_append_of_pos h,
    List.takeWhile_cons_of_neg hstop, List.dropWhile_cons_of_neg hstop, List.append_nil]

/-- **A text begins with an ordinal** where it begins with a bar, a number, an underscore and a
number. -/
theorem isOrdinal_iff {text : Text} :
    isOrdinal text = true ↔
      ∃ ordinal index after, text = '|' :: ordinal ++ '_' :: index ++ after ∧ IsNumber ordinal ∧
        IsNumber index := by
  constructor
  · intro h
    rw [isOrdinal.eq_def] at h
    split at h
    · next text =>
      split at h
      · next d digits c after hrun =>
        obtain ⟨hdigits, hafter⟩ := Prod.mk.inj hrun
        have htext : text = d :: digits ++ '_' :: c :: after := by
          rw [← hdigits, ← hafter, List.takeWhile_append_dropWhile]
        have hall : ∀ e ∈ d :: digits, Text.isDigit e = true := by
          rw [← hdigits]
          exact fun e he => List.all_eq_true.mp List.all_takeWhile e he
        refine ⟨d :: digits, [c], after, by rw [htext]; simp, ⟨List.cons_ne_nil d digits, hall⟩,
          List.cons_ne_nil c [], ?_⟩
        rintro e he
        rwa [List.mem_singleton.mp he]
      · exact nomatch h
    · exact nomatch h
  · rintro ⟨ordinal, index, after, rfl, ⟨hordinal, hdigits⟩, hindex, hlast⟩
    obtain ⟨d, digits, rfl⟩ := List.exists_cons_of_ne_nil hordinal
    obtain ⟨c, rest, rfl⟩ := List.exists_cons_of_ne_nil hindex
    have hrun := digitRun_append hdigits (c := '_') (by decide) (c :: rest ++ after)
    simp only [List.cons_append, List.append_assoc] at hrun ⊢
    rw [isOrdinal, hrun]
    exact hlast c List.mem_cons_self

/-- An ordinal stands somewhere in a text where an end of the text begins with one. -/
theorem hasOrdinal_iff {text : Text} :
    hasOrdinal text = true ↔ ∃ rest, rest <:+ text ∧ isOrdinal rest = true := by
  induction text with
  | nil =>
    refine ⟨nofun, ?_⟩
    rintro ⟨rest, hrest, h⟩
    obtain rfl := List.suffix_nil.mp hrest
    exact nomatch h
  | cons c text ih =>
    rw [hasOrdinal, Bool.or_eq_true, ih]
    constructor
    · rintro (h | ⟨rest, hrest, h⟩)
      · exact ⟨c :: text, List.suffix_refl _, h⟩
      · exact ⟨rest, hrest.trans (List.suffix_cons c text), h⟩
    · rintro ⟨rest, hrest, h⟩
      rcases List.suffix_cons_iff.mp hrest with rfl | hrest
      · exact .inl h
      · exact .inr ⟨rest, hrest, h⟩

/-! ### Names -/

/-- **The first mark of a line is as good as any other**: a line is that of a local function where
some mark stands before some ordinal, with at least one character between them.

**Proof sketch.** An ordinal behind a later mark also stands behind the first one, with the later
mark between them. -/
theorem isLocalLine_iff {line : Text} :
    isLocalLine line = true ↔
      ∃ before inner rest, line = before ++ "g__".toList ++ inner ++ rest ∧ inner ≠ [] ∧
        isOrdinal rest = true := by
  constructor
  · intro h
    rw [isLocalLine] at h
    split at h
    · next before c behind hcut =>
      obtain ⟨rest, ⟨inner, hinner⟩, hordinal⟩ := hasOrdinal_iff.mp h
      have hline := Text.append_of_cutAt hcut
      refine ⟨before, c :: inner, rest, ?_, List.cons_ne_nil c inner, hordinal⟩
      rw [hline, ← hinner]
      simp
    · exact nomatch h
  · rintro ⟨before, inner, rest, rfl, hinner, hordinal⟩
    obtain ⟨c, inner, rfl⟩ := List.exists_cons_of_ne_nil hinner
    obtain ⟨front, behind, hcut, hends⟩ :=
      Text.exists_cutAt "g__".toList before (c :: inner ++ rest)
    obtain ⟨d, behind, rfl⟩ : ∃ d tail, behind = d :: tail :=
      List.exists_cons_of_ne_nil (hends.ne_nil (by simp))
    have hrest : rest <:+ behind := by
      rcases List.suffix_cons_iff.mp hends with heq | hends
      · exact (List.cons.inj heq).2 ▸ List.suffix_append inner rest
      · exact ((List.suffix_append (c :: inner) rest).trans hends)
    rw [List.append_assoc, isLocalLine, hcut]
    exact hasOrdinal_iff.mpr ⟨rest, hrest, hordinal⟩

/-- What makes a name that of a local function: the mark, what stands between it and the ordinal,
and the ordinal. -/
def lifted (inner ordinal index : Text) : Text :=
  "g__".toList ++ inner ++ '|' :: ordinal ++ '_' :: index

/-- A line is that of a local function where a mark and an ordinal occur in it, one behind the
other. -/
theorem isLocalLine_iff_lifted {line : Text} :
    isLocalLine line = true ↔
      ∃ inner ordinal index, inner ≠ [] ∧ IsNumber ordinal ∧ IsNumber index ∧
        lifted inner ordinal index <:+: line := by
  rw [isLocalLine_iff]
  constructor
  · rintro ⟨before, inner, _, rfl, hinner, hrest⟩
    obtain ⟨ordinal, index, after, rfl, hordinal, hindex⟩ := isOrdinal_iff.mp hrest
    exact ⟨inner, ordinal, index, hinner, hordinal, hindex, before, after, by simp [lifted]⟩
  · rintro ⟨inner, ordinal, index, hinner, hordinal, hindex, before, after, rfl⟩
    refine ⟨before, inner, '|' :: ordinal ++ '_' :: index ++ after, by simp [lifted], hinner, ?_⟩
    exact isOrdinal_iff.mpr ⟨ordinal, index, after, rfl, hordinal, hindex⟩

/-- A name has the parts of a local function where a mark and an ordinal occur in it, one behind the
other on the same line. -/
theorem isLocalName_iff_lifted {name : Text} :
    IsLocalName name ↔
      ∃ inner ordinal index, inner ≠ [] ∧ '\n' ∉ inner ∧ IsNumber ordinal ∧ IsNumber index ∧
        lifted inner ordinal index <:+: name := by
  constructor
  · rintro ⟨before, inner, ordinal, index, after, rfl, hinner, hline, hordinal, hindex⟩
    exact ⟨inner, ordinal, index, hinner, hline, hordinal, hindex, before, after,
      by simp [lifted]⟩
  · rintro ⟨inner, ordinal, index, hinner, hline, hordinal, hindex, before, after, rfl⟩
    exact ⟨before, inner, ordinal, index, after, by simp [lifted], hinner, hline, hordinal, hindex⟩

/-- No line feed stands in a number. -/
theorem IsNumber.lineFeed_not_mem {text : Text} (h : IsNumber text) : '\n' ∉ text :=
  fun hmem => absurd (h.2 '\n' hmem) (by decide)

/-- **Local functions are told by their parts**: a name is that of one exactly where it has such
parts in any way.

**Proof sketch.** Mark and ordinal stand on one line, and occur in the name where they occur in one
of its lines. -/
theorem isLocalFunction_iff_isLocalName {name : Text} :
    isLocalFunction name = true ↔ IsLocalName name := by
  rw [isLocalFunction, List.any_eq_true, isLocalName_iff_lifted]
  constructor
  · rintro ⟨line, hline, h⟩
    obtain ⟨inner, ordinal, index, hinner, hordinal, hindex, hoccurs⟩ := isLocalLine_iff_lifted.mp h
    have hfeed : '\n' ∉ lifted inner ordinal index := fun hmem =>
      Text.lineFeed_not_mem_of_mem_lines hline (hoccurs.subset hmem)
    have hone : '\n' ∉ inner := fun hmem => hfeed (by simp [lifted, hmem])
    exact ⟨inner, ordinal, index, hinner, hone, hordinal, hindex,
      (Text.infix_iff_exists_line hfeed name).mpr ⟨line, hline, hoccurs⟩⟩
  · rintro ⟨inner, ordinal, index, hinner, hone, hordinal, hindex, hoccurs⟩
    have hfeed : '\n' ∉ lifted inner ordinal index := by
      simp [lifted, hone, hordinal.lineFeed_not_mem, hindex.lineFeed_not_mem]
    obtain ⟨line, hline, hin⟩ := (Text.infix_iff_exists_line hfeed name).mp hoccurs
    exact ⟨line, hline,
      isLocalLine_iff_lifted.mpr ⟨inner, ordinal, index, hinner, hordinal, hindex, hin⟩⟩

instance (name : Text) : Decidable (IsLocalName name) :=
  decidable_of_iff (isLocalFunction name = true) isLocalFunction_iff_isLocalName

end LocalFunction

/-! ### Catalogs -/

/-- A source without the members whose names are those of local functions. -/
def SymbolSource.withoutLocalFunctions (source : SymbolSource) : SymbolSource :=
  { source with
    membersOf := fun type =>
      (source.membersOf type).filter fun member => ¬ LocalFunction.IsLocalName member.name }

namespace LocalFunction

/-- Skipping local functions is keeping the members that are none. -/
theorem filter_holdsMember (filter : CatalogFilter) (members : List Member) :
    members.filter (Catalog.holdsMember { filter with skipLocalFunctions := true }) =
      (members.filter fun member => ¬ IsLocalName member.name).filter
        (Catalog.holdsMember { filter with skipLocalFunctions := false }) := by
  rw [List.filter_filter]
  refine List.filter_congr fun member _ => ?_
  simp only [Catalog.holdsMember, Bool.true_and, Bool.false_and, Bool.not_false,
    ← isLocalFunction_iff_isLocalName]
  cases isLocalFunction member.name <;> rfl

/-- The symbols that are left without local functions: the types that are held, in order, and behind
each those of its members whose names do not have the parts of a local function. -/
def keptSymbols (filter : CatalogFilter) (source : SymbolSource) : List Symbol :=
  (source.exported.filter fun type => filter.interfacesOnly → type.isInterface).flatMap fun type =>
    .type type ::
      ((source.membersOf type).filter fun member => ¬ IsLocalName member.name).map .member

variable {filter : CatalogFilter} {source : SymbolSource}

/-- **A catalog that skips local functions visits what is left without them.** -/
theorem visited_eq_keptSymbols :
    Catalog.visited { filter with skipLocalFunctions := true } source =
      keptSymbols filter source := by
  rw [Catalog.visited, keptSymbols]
  refine List.flatMap_congr fun type _ => ?_
  simp only [Catalog.symbolsOf, ← isLocalFunction_iff_isLocalName, true_and]

/-- All types that are held are left. -/
theorem type_mem_keptSymbols {type : TypeTerm} :
    .type type ∈ keptSymbols filter source ↔
      type ∈ source.exported ∧ (filter.interfacesOnly → type.isInterface) := by
  simp only [keptSymbols, List.mem_flatMap, List.mem_filter, List.mem_cons, List.mem_map,
    decide_eq_true_eq, reduceCtorEq, and_false, exists_false, or_false, Symbol.type.injEq]
  constructor
  · rintro ⟨held, h, rfl⟩
    exact h
  · exact fun h => ⟨type, h, rfl⟩

/-- The members of the types that are held are left where they are no local functions. -/
theorem member_mem_keptSymbols {member : Member} :
    .member member ∈ keptSymbols filter source ↔
      (∃ type ∈ source.exported, (filter.interfacesOnly → type.isInterface) ∧
        member ∈ source.membersOf type) ∧ ¬ IsLocalName member.name := by
  simp only [keptSymbols, List.mem_flatMap, List.mem_filter, List.mem_cons, List.mem_map,
    decide_eq_true_eq, reduceCtorEq, false_or, Symbol.member.injEq]
  constructor
  · rintro ⟨type, ⟨htype, hheld⟩, other, ⟨hmember, hname⟩, rfl⟩
    exact ⟨⟨type, htype, hheld, hmember⟩, hname⟩
  · rintro ⟨⟨type, htype, hheld, hmember⟩, hname⟩
    exact ⟨type, ⟨htype, hheld⟩, member, ⟨hmember, hname⟩, rfl⟩

/-- Skipping local functions is making the catalog of a source without them. -/
theorem ofSource_withoutLocalFunctions (store : Store) (files : FileView) (source : SymbolSource)
    (filter : CatalogFilter) :
    Catalog.ofSource store files source { filter with skipLocalFunctions := true } =
      Catalog.ofSource store files source.withoutLocalFunctions
        { filter with skipLocalFunctions := false } := by
  have htypes : ∀ loaded : Store,
      Catalog.typeEntries loaded { filter with skipLocalFunctions := true } source =
        Catalog.typeEntries loaded { filter with skipLocalFunctions := false }
          source.withoutLocalFunctions := by
    intro loaded
    funext type
    rw [Catalog.typeEntries, filter_holdsMember]
    rfl
  have hentries : ∀ loaded : Store,
      Catalog.entries loaded { filter with skipLocalFunctions := true } source =
        Catalog.entries loaded { filter with skipLocalFunctions := false }
          source.withoutLocalFunctions := by
    intro loaded
    rw [Catalog.entries, htypes]
    rfl
  simp only [Catalog.ofSource, hentries]
  rfl

/-- **Local functions are told exactly by their shape, and skipped by it.** A name is that of a
local function where it can be taken apart, in any way, into any text, the mark `g__`, at least one
character without a line feed, a bar, a number, an underscore, a number and any text. A catalog that
skips local functions is the catalog of all members without exactly those whose names have such
parts.

Once the documentation of the unit has been loaded, such a catalog lists the types that are held
and, of their members, exactly those whose names have no such parts, each with its entries and in
order. It succeeds exactly where all of these have an identifier.

**Proof sketch.** What a catalog lists is what it visits, and by the first part it visits what is
left without the members whose names have such parts. -/
theorem skips_exactly_local_names :
    (∀ name, isLocalFunction name = true ↔
      ∃ before inner ordinal index after, HasForm name before inner ordinal index after) ∧
    (∀ (store : Store) (files : FileView) (source : SymbolSource) (filter : CatalogFilter),
      Catalog.ofSource store files source { filter with skipLocalFunctions := true } =
        Catalog.ofSource store files source.withoutLocalFunctions
          { filter with skipLocalFunctions := false }) ∧
    ∀ (store : Store) (files : FileView) (source : SymbolSource) (filter : CatalogFilter)
      (loaded : Store), store.loadForOwner files source.owner = (.ok (), loaded) →
      let skipping := { filter with skipLocalFunctions := true }
      (∀ entries, (Catalog.ofSource store files source skipping).1 = .ok entries ↔
        Catalog.Lists loaded skipping (keptSymbols filter source) entries) ∧
      ((∃ entries, (Catalog.ofSource store files source skipping).1 = .ok entries) ↔
        ∀ symbol ∈ keptSymbols filter source,
          ∃ identifier, Identifier.ofSymbol symbol = .ok identifier) ∧
      (∀ type, .type type ∈ keptSymbols filter source ↔
        type ∈ source.exported ∧ (filter.interfacesOnly → type.isInterface)) ∧
      ∀ member, .member member ∈ keptSymbols filter source ↔
        (∃ type ∈ source.exported, (filter.interfacesOnly → type.isInterface) ∧
          member ∈ source.membersOf type) ∧
        ¬ ∃ before inner ordinal index after,
          HasForm member.name before inner ordinal index after := by
  refine ⟨fun name => isLocalFunction_iff_isLocalName, ofSource_withoutLocalFunctions,
    fun store files source filter loaded hload => ?_⟩
  rw [← visited_eq_keptSymbols]
  refine ⟨fun entries => Catalog.ofSource_eq_ok_iff hload, Catalog.ofSource_succeeds_iff hload, ?_⟩
  rw [visited_eq_keptSymbols]
  exact ⟨fun type => type_mem_keptSymbols, fun member => member_mem_keptSymbols⟩

set_option maxRecDepth 8000 in
/-- The interface of a unit has a method and a local function of the method. The catalog lists the
interface and the method, and skips the local function. -/
theorem skips_exactly_local_names_readerUnit :
    isLocalFunction "<Read>g__Skip|0_0".toList = true ∧
      (Catalog.ofSource (.empty {}) Catalog.readerFiles Catalog.readerUnit.source
          { interfacesOnly := true }).1 =
        .ok [{ identifier := "T:IReader".toList, kind := .type },
          { identifier := "M:IReader.Read(Line)".toList, kind := .method,
            documentation := some "<param name=\"line\">a</param>".toList }] := by
  obtain ⟨htold, -, hlisted⟩ := skips_exactly_local_names
  have hzero : IsNumber ['0'] :=
    ⟨List.cons_ne_nil _ _, List.forall_mem_singleton.mpr (by decide)⟩
  refine ⟨(htold _).mpr ⟨"<Read>".toList, "Skip".toList, ['0'], ['0'], [], rfl, by decide,
    by decide, hzero, hzero⟩, ?_⟩
  obtain ⟨hlists, -⟩ := hlisted (.empty {}) Catalog.readerFiles Catalog.readerUnit.source
    { interfacesOnly := true } _ rfl
  refine (hlists _).mpr ?_
  show Catalog.Lists _ _ [_, _] ([_] ++ ([_] ++ []))
  exact .cons (.type ⟨rfl, rfl, rfl, rfl⟩) (.cons (.member ⟨rfl, rfl, rfl, rfl⟩ .nil) .nil)

example : isLocalFunction "<g__a|0>g__b|1|2_3".toList = true := by decide

end LocalFunction

end SymbolDocs
