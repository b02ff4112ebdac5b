import Mathlib.Data.List.Chain
import SymbolDocs.Proofs.Identifier.SignatureText
import SymbolDocs.Proofs.Outcome
import SymbolDocs.Proofs.TypeTerm.Flatten
import SymbolDocs.Proofs.TypeTerm.Parts
set_option autoImplicit false

/-!
# The two forms of a written name

A type is written as a definition, with the arity marks of its names, or inside a signature, without
these and with lists in braces. Nothing else is different: what is left of the one without its arity
marks is what is left of the other without its lists.

## Main definitions

* `Naming.Unmarked` — texts without arity marks.
* `Naming.Balanced` — texts whose braces are nested properly.
* `Naming.withoutLists` — a text without what stands in braces.
* `Naming.Unbraced` — texts without braces.

## Main results

* `Naming.withoutArity_append` — arity marks are removed part by part.
* `Naming.Balanced.withoutLists_append` — lists are removed part by part.
* `Naming.balanced_write` — written names have balanced braces.
* `Naming.withoutLists_eq_withoutArity` — the two forms agree but for arity marks and lists.

## Design

A list is removed as a whole, with all lists inside it, so that arity marks and dots of the types
inside are of no matter. An arity mark cannot reach over a dot, a brace or a bracket, and so the
marks of the whole name are those of the names in it.
-/

namespace SymbolDocs

namespace Naming

/-! ### Arity marks -/

/-- No backtick of the text has a decimal digit right behind it. -/
def Unmarked (text : Text) : Prop :=
  text.IsChain fun c next => c = '\x60' → Text.isDigit next = false

instance (text : Text) : Decidable (Unmarked text) :=
  inferInstanceAs (Decidable (text.IsChain _))

/-- A character stays unless it is a backtick with a digit behind it. -/
theorem withoutArity_keep {c : Char} {text : Text}
    (h : c = '\x60' → ∀ d ∈ text.head?, Text.isDigit d = false) :
    withoutArity (c :: text) = c :: withoutArity text := by
  have hmark : (decide (c = '\x60') && text.head?.any Text.isDigit) = false := by
    by_cases hc : c = '\x60'
    · cases text with
      | nil => simp
      | cons d text => simpa [hc] using h hc d rfl
    · simp [hc]
  rw [withoutArity, withoutArityFrom, hmark]
  simp [withoutArity]

/-- A text without arity marks is left as it is. -/
theorem withoutArity_of_unmarked {text : Text} (h : Unmarked text) : withoutArity text = text := by
  induction text with
  | nil => rfl
  | cons c text ih =>
    obtain ⟨hhead, htail⟩ := List.isChain_cons.mp h
    rw [withoutArity_keep fun hc d hd => hhead d hd hc, ih htail]

/-- A text without backticks has no arity marks. -/
theorem unmarked_of_not_mem {text : Text} (h : '\x60' ∉ text) : Unmarked text := by
  induction text with
  | nil => exact .nil
  | cons c text ih =>
    rw [List.mem_cons, not_or] at h
    exact List.isChain_cons.mpr ⟨fun next _ hc => absurd hc.symm h.1, ih h.2⟩

/-- Behind a text that is read first, the removal of arity marks begins anew, where what follows
does not go on with the digits of a mark at its end. -/
theorem withoutArityFrom_append_of_head {rest : Text}
    (h : ∀ c ∈ rest.head?, Text.isDigit c = false) (marked : Bool) (text : Text) :
    withoutArityFrom marked (text ++ rest) = withoutArityFrom marked text ++ withoutArity rest := by
  induction text generalizing marked with
  | nil =>
    cases rest with
    | nil => rfl
    | cons c rest => simp [withoutArity, withoutArityFrom, h c rfl]
  | cons c text ih =>
    have hnext : (text ++ rest).head?.any Text.isDigit = text.head?.any Text.isDigit := by
      cases text with
      | nil =>
        cases rest with
        | nil => rfl
        | cons d rest => simpa using h d rfl
      | cons d text => rfl
    rw [List.cons_append, withoutArityFrom, withoutArityFrom, hnext, ih, ih]
    split
    · rfl
    · split <;> rfl

/-- **Arity marks are removed part by part**, where the second part does not go on with the digits
of a mark at the end of the first. -/
theorem withoutArity_append {rest : Text} (h : ∀ c ∈ rest.head?, Text.isDigit c = false)
    (text : Text) : withoutArity (text ++ rest) = withoutArity text ++ withoutArity rest :=
  withoutArityFrom_append_of_head h false text

/-- What is left of a text without its arity marks are characters of the text. -/
theorem mem_of_mem_withoutArityFrom {marked : Bool} {text : Text} {c : Char}
    (h : c ∈ withoutArityFrom marked text) : c ∈ text := by
  induction text generalizing marked with
  | nil => exact absurd h List.not_mem_nil
  | cons d text ih =>
    rw [withoutArityFrom] at h
    split at h
    · exact List.mem_cons_of_mem d (ih h)
    · split at h
      · exact List.mem_cons_of_mem d (ih h)
      · rcases List.mem_cons.mp h with rfl | h
        · exact List.mem_cons_self
        · exact List.mem_cons_of_mem d (ih h)

/-! ### Braces -/

/-- The braces of the text are nested properly. -/
inductive Balanced : Text → Prop where
  /-- The empty text. -/
  | nil : Balanced []
  /-- A character that is no brace. -/
  | plain {c : Char} {text : Text} (not_opening : c ≠ '\x7b') (not_closing : c ≠ '\x7d')
      (rest : Balanced text) : Balanced (c :: text)
  /-- A list in braces. -/
  | list {inner text : Text} (inside : Balanced inner) (rest : Balanced text) :
      Balanced ('\x7b' :: (inner ++ '\x7d' :: text))

/-- A text without its lists in braces, behind `depth` braces that are still open. -/
def withoutListsFrom (depth : Nat) : Text → Text
  | [] => []
  | c :: text =>
    if c = '\x7b' then withoutListsFrom (depth + 1) text
    else if depth = 0 then c :: withoutListsFrom 0 text
    else if c = '\x7d' then withoutListsFrom (depth - 1) text
    else withoutListsFrom depth text

/-- A text without its lists in braces: every outermost one is removed as a whole. -/
def withoutLists (text : Text) : Text :=
  withoutListsFrom 0 text

/-- The text holds no brace. -/
def Unbraced (text : Text) : Prop :=
  '\x7b' ∉ text ∧ '\x7d' ∉ text

instance (text : Text) : Decidable (Unbraced text) :=
  inferInstanceAs (Decidable (_ ∧ _))

/-- No brace is left of a text without braces. -/
theorem Unbraced.withoutArity {text : Text} (h : Unbraced text) :
    Unbraced (Naming.withoutArity text) :=
  ⟨fun hmem => h.1 (mem_of_mem_withoutArityFrom hmem),
    fun hmem => h.2 (mem_of_mem_withoutArityFrom hmem)⟩

/-- A text without braces has balanced braces. -/
theorem Unbraced.balanced {text : Text} (h : Unbraced text) : Balanced text := by
  induction text with
  | nil => exact .nil
  | cons c text ih =>
    obtain ⟨hopening, hclosing⟩ := h
    rw [List.mem_cons, not_or] at hopening hclosing
    exact .plain (Ne.symm hopening.1) (Ne.symm hclosing.1) (ih ⟨hopening.2, hclosing.2⟩)

/-- Two balanced texts, one behind the other, are balanced. -/
theorem Balanced.append {text rest : Text} (h : Balanced text) (hrest : Balanced rest) :
    Balanced (text ++ rest) := by
  induction h with
  | nil => exact hrest
  | plain hopening hclosing _ ih => exact .plain hopening hclosing ih
  | list inside _ _ ih =>
    rw [List.cons_append, List.append_assoc, List.cons_append]
    exact .list inside ih

/-- Inside braces a text with balanced braces is passed over. -/
theorem Balanced.withoutListsFrom_succ {text : Text} (h : Balanced text) (depth : Nat)
    (rest : Text) :
    withoutListsFrom (depth + 1) (text ++ rest) = withoutListsFrom (depth + 1) rest := by
  induction h generalizing depth rest with
  | nil => rfl
  | plain hopening hclosing _ ih =>
    rw [List.cons_append, withoutListsFrom, if_neg hopening, if_neg (Nat.succ_ne_zero depth),
      if_neg hclosing, ih]
  | list _ _ ihinside ih =>
    rw [List.cons_append, List.append_assoc, List.cons_append, withoutListsFrom, if_pos rfl,
      ihinside, withoutListsFrom, if_neg (by decide), if_neg (Nat.succ_ne_zero _), if_pos rfl,
      Nat.add_sub_cancel, ih]

/-- **Lists are removed part by part**, where the braces of the first part are balanced. -/
theorem Balanced.withoutLists_append {text : Text} (h : Balanced text) (rest : Text) :
    withoutLists (text ++ rest) = withoutLists text ++ withoutLists rest := by
  have hlist : ∀ {inner : Text}, Balanced inner → ∀ after : Text,
      withoutLists ('\x7b' :: (inner ++ '\x7d' :: after)) = withoutLists after := by
    intro inner hinner after
    rw [withoutLists, withoutListsFrom, if_pos rfl, hinner.withoutListsFrom_succ, withoutListsFrom,
      if_neg (by decide), if_neg Nat.one_ne_zero, if_pos rfl]
    rfl
  induction h with
  | nil => rfl
  | @plain c text hopening hclosing _ ih =>
    have hcons : ∀ after : Text, withoutLists (c :: after) = c :: withoutLists after := by
      intro after
      rw [withoutLists, withoutListsFrom, if_neg hopening, if_pos rfl]
      rfl
    rw [List.cons_append, hcons, hcons, ih]
    rfl
  | list inside _ _ ih =>
    rw [List.cons_append, List.append_assoc, List.cons_append, hlist inside, hlist inside, ih]

/-- A text without braces has no lists. -/
theorem Unbraced.withoutLists_eq {text : Text} (h : Unbraced text) : withoutLists text = text := by
  induction text with
  | nil => rfl
  | cons c text ih =>
    obtain ⟨hopening, hclosing⟩ := h
    rw [List.mem_cons, not_or] at hopening hclosing
    rw [withoutLists, withoutListsFrom, if_neg (Ne.symm hopening.1), if_pos rfl]
    exact congrArg (c :: ·) (ih ⟨hopening.2, hclosing.2⟩)

/-- Texts with balanced braces, separated by commas, have balanced braces. -/
theorem balanced_commaSeparated {texts : List Text} (h : ∀ text ∈ texts, Balanced text) :
    Balanced (commaSeparated texts) := by
  induction texts with
  | nil => exact .nil
  | cons first rest ih =>
    obtain ⟨hfirst, hrest⟩ := List.forall_mem_cons.mp h
    cases rest with
    | nil => simpa [commaSeparated] using hfirst
    | cons second rest =>
      rw [commaSeparated, List.intercalate_cons_cons, List.append_assoc]
      exact hfirst.append (.plain (by decide) (by decide) (ih hrest))

/-- **A list in braces has balanced braces, and is removed as a whole.** -/
theorem balanced_braces {listed : List Text} (h : ∀ text ∈ listed, Balanced text) :
    Balanced (braces listed) ∧ withoutLists (braces listed) = [] := by
  cases listed with
  | nil => exact ⟨.nil, rfl⟩
  | cons first rest =>
    have hinner := balanced_commaSeparated h
    have hbraces : braces (first :: rest) =
        '\x7b' :: (commaSeparated (first :: rest) ++ ['\x7d']) := rfl
    refine ⟨.list hinner .nil, ?_⟩
    rw [hbraces, withoutLists, withoutListsFrom, if_pos rfl, hinner.withoutListsFrom_succ]
    rfl

/-! ### Parts of written names -/

/-- What is written behind the element of an array, a pointer or a by-reference type holds neither
braces nor arity marks, and does not go on with an arity mark of the element. -/
theorem wrapper_text_plain (wrapper : Wrapper) :
    Unbraced wrapper.text ∧
      ∀ text, withoutArity (text ++ wrapper.text) = withoutArity text ++ wrapper.text := by
  have hother : ∀ c ∈ ['\x7b', '\x7d', '\x60'], c ∉ wrapper.text := by
    intro c hc hmem
    have hdisjoint : (['\x7b', '\x7d', '\x60'].all fun c =>
        c ∉ ['[', ']', ',', '0', ':', '*', '@']) = true := by decide
    have hnot := List.all_eq_true.mp hdisjoint c hc
    exact of_decide_eq_true hnot (TypeSignature.mem_wrapper_text hmem)
  refine ⟨⟨hother _ (by decide), hother _ (by decide)⟩, fun text => ?_⟩
  have hunmarked : Unmarked wrapper.text := unmarked_of_not_mem (hother _ (by decide))
  rw [withoutArity_append (TypeSignature.isDigit_head_wrapper_text wrapper),
    withoutArity_of_unmarked hunmarked]

/-- **A type over an element is written as the element with something behind it**, the same in both
forms. -/
theorem exists_wrapper_of_write {form : NameForm} {scope : GenericScope} {type element : TypeTerm}
    (helement : type.element? = some element) {written : Text}
    (h : write form scope type = .ok written) :
    ∃ (wrapper : Wrapper) (name : Text), write form scope element = .ok name ∧
      written = name ++ wrapper.text ∧
      ∀ other otherName, write other scope element = .ok otherName →
        write other scope type = .ok (otherName ++ wrapper.text) := by
  cases type with
  | array header inner rank =>
    obtain rfl : inner = element := Option.some.inj helement
    obtain ⟨name, hname, h⟩ := bind_eq_ok.mp h
    split at h
    · simp at h
    · next hrank =>
      refine ⟨.array rank, name, hname, (Except.ok.inj h).symm, fun other otherName hother => ?_⟩
      rw [write, hother]
      exact if_neg hrank
  | pointer header inner =>
    obtain rfl : inner = element := Option.some.inj helement
    obtain ⟨name, hname, h⟩ := bind_eq_ok.mp h
    refine ⟨.pointer, name, hname, (Except.ok.inj h).symm, fun other otherName hother => ?_⟩
    rw [write, hother]
    rfl
  | byRef header inner =>
    obtain rfl : inner = element := Option.some.inj helement
    obtain ⟨name, hname, h⟩ := bind_eq_ok.mp h
    refine ⟨.byRef, name, hname, (Except.ok.inj h).symm, fun other otherName hother => ?_⟩
    rw [write, hother]
    rfl
  | _ => simp [TypeTerm.element?] at helement

/-- A reference to a generic parameter holds no brace. -/
theorem unbraced_reference {scope : GenericScope} {name written : Text}
    (h : scope.reference name = .ok written) : Unbraced written := by
  have hnumber : ∀ (position : Nat) (c : Char), c.isDigit = false → c ∉ Text.ofNat position := by
    intro position c hc hmem
    exact absurd (Text.isDigit_of_mem_ofNat hmem) (by simp [hc])
  rw [GenericScope.reference] at h
  split at h
  · next position _ =>
    obtain rfl := Except.ok.inj h
    simp [Unbraced, hnumber position _ (show '\x7b'.isDigit = false by decide),
      hnumber position _ (show '\x7d'.isDigit = false by decide)]
  · split at h
    · next position _ =>
      obtain rfl := Except.ok.inj h
      simp [Unbraced, hnumber position _ (show '\x7b'.isDigit = false by decide),
        hnumber position _ (show '\x7d'.isDigit = false by decide)]
    · exact nomatch h

/-! ### Written names -/

/-- No name and no namespace holds a brace, in the type and in all that occurs in it. -/
def UnbracedParts (type : TypeTerm) : Prop :=
  ∀ t ∈ type.parts, Unbraced t.name ∧ Unbraced t.space

instance (type : TypeTerm) : Decidable (UnbracedParts type) :=
  inferInstanceAs (Decidable (∀ t ∈ type.parts, _))

/-- What stands before the name of a type has balanced braces. -/
theorem balanced_qualifier {form : NameForm} {scope : GenericScope} {space : Text}
    {declaring : Option TypeTerm} (hspace : Unbraced space)
    (houter : ∀ outer ∈ declaring, ∀ name, write form scope outer = .ok name → Balanced name)
    {lead : Text} (h : qualifier form scope space declaring = .ok lead) : Balanced lead := by
  have hdot : Balanced ['.'] := .plain (by decide) (by decide) .nil
  cases declaring with
  | none =>
    rw [qualifier_none] at h
    obtain rfl := Except.ok.inj h
    split
    · exact .nil
    · exact hspace.balanced.append hdot
  | some outer =>
    rw [qualifier_some] at h
    obtain ⟨name, hname, rfl⟩ := map_eq_ok.mp h
    exact (houter outer rfl name hname).append hdot

/-- What a type lists has balanced braces. -/
theorem balanced_listing {scope : GenericScope} {parameters : List Text}
    {arguments : List TypeTerm}
    (harguments : ∀ argument ∈ arguments, ∀ name,
      write .signature scope argument = .ok name → Balanced name)
    {listed : List Text} (h : listing scope parameters arguments = .ok listed) :
    ∀ text ∈ listed, Balanced text := by
  rw [listing] at h
  split at h
  · exact forall_of_mapM h fun name _ written hwritten => (unbraced_reference hwritten).balanced
  · exact forall_of_mapM h harguments

/-- An array, a pointer or a by-reference type is written with balanced braces where its element
is. -/
theorem balanced_write_of_element {form : NameForm} {scope : GenericScope} {type element : TypeTerm}
    {written : Text} (helement : type.element? = some element)
    (hbalanced : ∀ name, write form scope element = .ok name → Balanced name)
    (h : write form scope type = .ok written) : Balanced written := by
  obtain ⟨wrapper, name, hname, rfl, -⟩ := exists_wrapper_of_write helement h
  exact (hbalanced name hname).append (wrapper_text_plain wrapper).1.balanced

/-- **Written names have balanced braces**, where the names in them hold none.

**Proof sketch.** By induction on the type. Braces are written around lists only, and what is listed
are written names again. -/
theorem balanced_write {form : NameForm} {scope : GenericScope} {type : TypeTerm} {written : Text}
    (hparts : UnbracedParts type) (h : write form scope type = .ok written) :
    Balanced written := by
  induction type using TypeTerm.rec_on_parts generalizing written with
  | named header declaring parameters arguments ihouter iharguments =>
    obtain ⟨hname, hspace⟩ := hparts _ (TypeTerm.mem_parts_self _)
    have hlead : ∀ lead, qualifier form scope header.space declaring = .ok lead → Balanced lead :=
      fun lead => balanced_qualifier hspace fun outer houter name =>
        ihouter outer houter fun t ht => hparts t (TypeTerm.mem_parts_of_outer houter ht)
    cases form with
    | definition =>
      rw [write] at h
      obtain ⟨lead, hqualifier, h⟩ := bind_eq_ok.mp h
      obtain rfl := Except.ok.inj h
      exact (hlead lead hqualifier).append hname.balanced
    | signature =>
      rw [write_named_signature] at h
      obtain ⟨lead, hqualifier, h⟩ := bind_eq_ok.mp h
      obtain ⟨listed, hlisted, rfl⟩ := map_eq_ok.mp h
      have hbalanced := balanced_listing (fun argument hargument name =>
        iharguments argument hargument fun t ht =>
          hparts t (TypeTerm.mem_parts_of_argument hargument ht)) hlisted
      exact ((hlead lead hqualifier).append hname.withoutArity.balanced).append
        (balanced_braces hbalanced).1
  | genericParameter header => exact (unbraced_reference h).balanced
  | array header element rank ih =>
    exact balanced_write_of_element rfl (fun name => ih fun t ht => hparts t (.tail _ ht)) h
  | pointer header element ih =>
    exact balanced_write_of_element rfl (fun name => ih fun t ht => hparts t (.tail _ ht)) h
  | byRef header element ih =>
    exact balanced_write_of_element rfl (fun name => ih fun t ht => hparts t (.tail _ ht)) h

/-- What is left of a named type in a signature without its lists: what is left of what stands
before its name, and the name without arity marks. -/
theorem withoutLists_write_named {scope : GenericScope} {header : TypeHeader}
    {declaring : Option TypeTerm} {parameters : List Text} {arguments : List TypeTerm}
    {written : Text} (hparts : UnbracedParts (.named header declaring parameters arguments))
    (h : write .signature scope (.named header declaring parameters arguments) = .ok written) :
    ∃ lead, qualifier .signature scope header.space declaring = .ok lead ∧
      withoutLists written = withoutLists lead ++ withoutArity header.name := by
  obtain ⟨hname, hspace⟩ : Unbraced header.name ∧ Unbraced header.space :=
    hparts _ (TypeTerm.mem_parts_self _)
  rw [write_named_signature] at h
  obtain ⟨lead, hqualifier, h⟩ := bind_eq_ok.mp h
  obtain ⟨listed, hlisted, rfl⟩ := map_eq_ok.mp h
  have hlead : Balanced lead := balanced_qualifier hspace (fun outer houter _ =>
    balanced_write fun t ht => hparts t (TypeTerm.mem_parts_of_outer houter ht)) hqualifier
  have hbalanced := balanced_listing (fun argument hargument _ =>
    balanced_write fun t ht => hparts t (TypeTerm.mem_parts_of_argument hargument ht)) hlisted
  refine ⟨lead, hqualifier, ?_⟩
  rw [List.append_assoc, hlead.withoutLists_append,
    hname.withoutArity.balanced.withoutLists_append, hname.withoutArity.withoutLists_eq,
    (balanced_braces hbalanced).2, List.append_nil]

/-- **A named type within named types is written alike in both forms**, but for arity marks and
lists.

**Proof sketch.** By induction on the type, along its nesting. Dots stand between the names, so that
the marks and lists are those of each name on its own. -/
theorem withoutLists_of_named {scope : GenericScope} {type : TypeTerm} {written : Text}
    (hnamed : ∀ t ∈ type.nesting, t.isNamed = true) (hparts : UnbracedParts type)
    (hspace : Unmarked type.outermost.space) (h : write .signature scope type = .ok written) :
    withoutLists written = withoutArity type.definitionPath := by
  have hdot : ∀ name : Text, withoutArity ('.' :: name) = '.' :: withoutArity name := fun _ => rfl
  have hdigit : ∀ (name : Text), ∀ c ∈ ('.' :: name).head?, Text.isDigit c = false := by
    intro name c hc
    obtain rfl : '.' = c := by simpa using hc
    decide
  induction type using TypeTerm.rec_on_parts generalizing written with
  | named header declaring parameters arguments ihouter _ =>
    obtain ⟨lead, hlead, hwritten⟩ := withoutLists_write_named hparts h
    rw [hwritten]
    cases declaring with
    | none =>
      rw [qualifier_none] at hlead
      obtain rfl := Except.ok.inj hlead
      have hunbraced : Unbraced header.space := (hparts _ (TypeTerm.mem_parts_self _)).2
      have hmarks : withoutArity header.space = header.space := withoutArity_of_unmarked hspace
      rw [TypeTerm.definitionPath_root]
      split
      · rfl
      · rw [hunbraced.balanced.withoutLists_append, hunbraced.withoutLists_eq, List.append_assoc,
          List.append_assoc, List.singleton_append, withoutArity_append (hdigit _), hmarks, hdot]
        rfl
    | some outer =>
      rw [qualifier_some] at hlead
      obtain ⟨name, hname, rfl⟩ := map_eq_ok.mp hlead
      have houter : UnbracedParts outer := fun t ht =>
        hparts t (TypeTerm.mem_parts_of_outer rfl ht)
      have hnested := ihouter outer rfl (fun t ht => hnamed t (by simp [TypeTerm.nesting, ht]))
        houter hspace hname
      rw [(balanced_write houter hname).withoutLists_append, hnested,
        TypeTerm.definitionPath_nested, withoutArity_append (hdigit _), hdot]
      exact List.append_assoc _ _ _
  | _ => simp [TypeTerm.nesting, TypeTerm.isNamed] at hnamed

/-- An array, a pointer or a by-reference type is written alike in both forms where its element
is. -/
theorem exists_write_definition_of_element {scope : GenericScope} {type element : TypeTerm}
    {written : Text} (helement : type.element? = some element) (hparts : UnbracedParts element)
    (hforms : ∀ name, write .signature scope element = .ok name →
      ∃ other, write .definition scope element = .ok other ∧
        withoutLists name = withoutArity other)
    (h : write .signature scope type = .ok written) :
    ∃ other, write .definition scope type = .ok other ∧
      withoutLists written = withoutArity other := by
  obtain ⟨wrapper, name, hname, rfl, hwrapped⟩ := exists_wrapper_of_write helement h
  obtain ⟨other, hother, hsame⟩ := hforms name hname
  obtain ⟨hunbraced, hmarks⟩ := wrapper_text_plain wrapper
  refine ⟨other ++ wrapper.text, hwrapped .definition other hother, ?_⟩
  rw [(balanced_write hparts hname).withoutLists_append, hunbraced.withoutLists_eq, hsame, hmarks]

/-- A type made of a named type within named types is written as a definition where it is in a
signature, and alike but for arity marks and lists.

**Proof sketch.** By induction on the type down to the named type inside. What is written behind an
element is the same in both forms, and holds neither lists nor marks. -/
theorem exists_write_definition {type : TypeTerm} {scope : GenericScope} {written : Text}
    (hnamed : ∀ t ∈ type.core.nesting, t.isNamed = true) (hparts : UnbracedParts type)
    (hspace : Unmarked type.core.outermost.space) (h : write .signature scope type = .ok written) :
    ∃ name, write .definition scope type = .ok name ∧ withoutLists written = withoutArity name := by
  induction type using TypeTerm.rec_on_parts generalizing written with
  | named header declaring parameters arguments _ _ =>
    exact ⟨_, TypeTerm.write_definition scope hnamed, withoutLists_of_named hnamed hparts hspace h⟩
  | genericParameter header => simp [TypeTerm.core, TypeTerm.nesting, TypeTerm.isNamed] at hnamed
  | array header element rank ih =>
    have helement : UnbracedParts element := fun t ht => hparts t (.tail _ ht)
    exact exists_write_definition_of_element rfl helement
      (fun name => ih hnamed helement hspace) h
  | pointer header element ih =>
    have helement : UnbracedParts element := fun t ht => hparts t (.tail _ ht)
    exact exists_write_definition_of_element rfl helement
      (fun name => ih hnamed helement hspace) h
  | byRef header element ih =>
    have helement : UnbracedParts element := fun t ht => hparts t (.tail _ ht)
    exact exists_write_definition_of_element rfl helement
      (fun name => ih hnamed helement hspace) h

/-- **The two forms of a written name agree but for arity marks and lists.** Let a type be made of a
named type within named types by arrays, pointers and by-reference types in any order, let no name
and no namespace in it hold a brace, and let the namespace of the outermost type hold no arity mark.
Where the type is written in a signature, it is also written as a definition, the braces of the one
are balanced, and what is left of it without its lists is what is left of the other without arity
marks. -/
theorem withoutLists_eq_withoutArity {type : TypeTerm} {scope : GenericScope} {written : Text}
    (hnamed : ∀ t ∈ type.core.nesting, t.isNamed = true) (hparts : UnbracedParts type)
    (hspace : Unmarked type.core.outermost.space) (h : write .signature scope type = .ok written) :
    ∃ name, write .definition scope type = .ok name ∧ Balanced written ∧
      withoutLists written = withoutArity name := by
  obtain ⟨name, hname, hsame⟩ := exists_write_definition hnamed hparts hspace h
  exact ⟨name, hname, balanced_write hparts h, hsame⟩

/-- A pointer to arrays of a type inside ``Outer``2` ``, which has a list of pairs as an argument.
The names hold backticks that mark no arity, and the inner type carries a namespace of its own. -/
def arraysOfInner : TypeTerm :=
  .pointerTo (.arrayOf 2 (.named { name := "Inner`1".toList, space := "Elsewhere`1".toList }
    (some (.named { name := "Outer``2`".toList, space := "Odd`.Space".toList } none []
      [.named { name := "List`1".toList } none []
        [.arrayOf 1 (.named { name := "Pair`2".toList } none []
          [.parameter "T".toList, .plain "System".toList "Int32".toList])],
        .parameter "T".toList]))
    ["U".toList] []))

/-- A scope that declares the parameters of both types. -/
def scopeOfInner : GenericScope :=
  { ofType := .ofNames ["T".toList, "U".toList] }

/-- The pointer as it is written in a signature. -/
def writtenArrays : Text :=
  ("Odd`.Space.Outer``\x7bList\x7bPair\x7b`0,System.Int32\x7d[]\x7d,`0\x7d" ++
    ".Inner\x7b`1\x7d[0:,0:]*").toList

set_option maxRecDepth 4000 in
/-- The lists of the one form stand where the other has the arity marks. -/
theorem withoutLists_eq_withoutArity_arraysOfInner :
    write .signature scopeOfInner arraysOfInner = .ok writtenArrays ∧
      withoutLists writtenArrays = "Odd`.Space.Outer``.Inner[0:,0:]*".toList ∧
      ∃ name, write .definition scopeOfInner arraysOfInner = .ok name ∧ Balanced writtenArrays ∧
        withoutLists writtenArrays = withoutArity name := by
  have hwritten : write .signature scopeOfInner arraysOfInner = .ok writtenArrays := rfl
  exact ⟨hwritten, rfl, withoutLists_eq_withoutArity (by decide) (by decide) (by decide) hwritten⟩

end Naming

end SymbolDocs
