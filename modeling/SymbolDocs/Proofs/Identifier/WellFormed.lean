import SymbolDocs.Proofs.Identifier.SignatureText
import SymbolDocs.Proofs.Outcome
import SymbolDocs.Proofs.TypeTerm.Flatten
set_option autoImplicit false

/-!
# Well-formed types

A type is well formed when its names hold none of the characters that identifiers use themselves and
its arity marks agree with its generic arguments and parameters. The written name of a well-formed
type is the text of its signature.

## Main definitions

* `IsPlain`, `IsSpace`, `IsTypeName` — names, namespaces and names of types with their arity marks.
* `TypeTerm.WellFormed` — the well-formed types.

## Main results

* `TypeTerm.WellFormed.legible` — the signature of a well-formed type can be read back.
* `TypeTerm.WellFormed.write_eq` — a well-formed type is written as its signature.
-/

namespace SymbolDocs

open Naming TypeSignature

/-! ### Names -/

/-- The characters that identifiers use between names, and the line feed. -/
def reserved : List Char :=
  ['.', ',', '(', ')', '\x7b', '\x7d', '[', ']', '*', '@', '\x60', '~', '+', ':', '#', '\n']

/-- A name that identifiers can hold as it is. -/
structure IsPlain (name : Text) : Prop where
  /-- The name is not empty. -/
  ne_nil : name ≠ []
  /-- The name holds no reserved character. -/
  not_reserved : ∀ c ∈ name, c ∉ reserved

instance (name : Text) : Decidable (IsPlain name) :=
  decidable_of_iff (name ≠ [] ∧ (name.all fun c => !reserved.contains c) = true)
    ⟨fun h => ⟨h.1, by simpa using h.2⟩, fun h => ⟨h.ne_nil, by simpa using h.not_reserved⟩⟩

/-- A namespace: plain names joined by dots; empty for none. -/
def IsSpace (space : Text) : Prop :=
  ∃ names : List Text, (∀ name ∈ names, IsPlain name) ∧ space = List.intercalate ['.'] names

/-- The arity mark of a type with some generic arguments or parameters; nothing for none. -/
def arityMark : Nat → Text
  | 0 => []
  | n => '\x60' :: Text.ofNat n

/-- The simple name of a type of some arity: a plain name with the arity mark. -/
def IsTypeName (arity : Nat) (name : Text) : Prop :=
  ∃ base, IsPlain base ∧ name = base ++ arityMark arity

/-- A reserved character does not stand in a plain name. -/
theorem IsPlain.not_mem {name : Text} (h : IsPlain name) {c : Char} (hc : c ∈ reserved) :
    c ∉ name :=
  fun hmem => h.not_reserved c hmem hc

/-- Every delimiter is reserved. -/
theorem mem_reserved_of_isDelimiter {c : Char} (h : isDelimiter c = true) : c ∈ reserved := by
  revert h
  simp only [isDelimiter, List.mem_cons, List.not_mem_nil, or_false, decide_eq_true_eq]
  rintro (rfl | rfl | rfl | rfl | rfl | rfl | rfl | rfl | rfl | rfl | rfl) <;> decide

/-- A plain name can be told from what stands around it. -/
theorem IsPlain.isSegmentName {name : Text} (h : IsPlain name) : IsSegmentName name where
  ne_nil := h.ne_nil
  head_ne := fun hhead => h.not_mem (c := '\x60') (by decide) (List.mem_of_mem_head? hhead)
  not_delimiter := fun c hc => by
    cases hd : isDelimiter c with
    | false => rfl
    | true => exact absurd (mem_reserved_of_isDelimiter hd) (h.not_reserved c hc)

/-- The base name of a type is what stands before the arity mark. -/
theorem baseName_append_arityMark {base : Text} (h : IsPlain base) (n : Nat) :
    baseName (base ++ arityMark n) = base := by
  have hbase : ∀ c ∈ base, (decide (c ≠ '\x60')) = true := fun c hc => by
    simpa using fun heq : c = '\x60' => h.not_mem (c := '\x60') (by decide) (heq ▸ hc)
  rw [baseName, List.takeWhile_append_of_pos hbase]
  cases n with
  | zero => simp [arityMark]
  | succ n => simp [arityMark]

/-- A text without backticks is no part of an arity mark. -/
theorem withoutArityFrom_append {base : Text} (h : '\x60' ∉ base) (rest : Text) :
    withoutArityFrom false (base ++ rest) = base ++ withoutArityFrom false rest := by
  induction base with
  | nil => rfl
  | cons c base ih =>
    obtain ⟨hc, hbase⟩ := not_or.mp (mt List.mem_cons.mpr h)
    simp [withoutArityFrom, Ne.symm hc, ih hbase]

/-- The digits of an arity mark are dropped. -/
theorem withoutArityFrom_digits {digits : Text} (h : ∀ c ∈ digits, Text.isDigit c = true) :
    withoutArityFrom true digits = [] := by
  induction digits with
  | nil => rfl
  | cons c digits ih =>
    have hc : Text.isDigit c = true := h c List.mem_cons_self
    simp [withoutArityFrom, hc, ih fun d hd => h d (List.mem_cons_of_mem c hd)]

/-- **The name of a type without its arity marks is its base name.** -/
theorem IsTypeName.withoutArity_eq {arity : Nat} {name : Text} (h : IsTypeName arity name) :
    withoutArity name = baseName name := by
  obtain ⟨base, hbase, rfl⟩ := h
  rw [baseName_append_arityMark hbase, withoutArity,
    withoutArityFrom_append (hbase.not_mem (by decide))]
  cases arity with
  | zero => simp [arityMark, withoutArityFrom]
  | succ n =>
    have hdigits : ∀ c ∈ Text.ofNat (n + 1), Text.isDigit c = true := fun c hc =>
      Text.isDigit_of_isDigit (Text.isDigit_of_mem_ofNat hc)
    obtain ⟨d, digits, hcons⟩ := List.exists_cons_of_ne_nil (Text.ofNat_ne_nil (n + 1))
    rw [hcons] at hdigits
    have hd : Text.isDigit d = true := hdigits d List.mem_cons_self
    have hrest := withoutArityFrom_digits fun c hc => hdigits c (List.mem_cons_of_mem d hc)
    simp [arityMark, withoutArityFrom, hcons, hd, hrest]

/-- The base name of a type is plain. -/
theorem IsTypeName.isPlain_baseName {arity : Nat} {name : Text} (h : IsTypeName arity name) :
    IsPlain (baseName name) := by
  obtain ⟨base, hbase, rfl⟩ := h
  rwa [baseName_append_arityMark hbase]

/-- The name of a type can be told from what stands around it, with its arity mark too. -/
theorem IsTypeName.isSegmentName {arity : Nat} {name : Text} (h : IsTypeName arity name) :
    IsSegmentName name := by
  obtain ⟨base, hbase, rfl⟩ := h
  obtain ⟨c, base, rfl⟩ := List.exists_cons_of_ne_nil hbase.ne_nil
  have hsegment := hbase.isSegmentName
  refine ⟨by simp, by simpa using hsegment.head_ne, fun d hd => ?_⟩
  rcases List.mem_append.mp hd with hd | hd
  · exact hsegment.not_delimiter d hd
  · cases arity with
    | zero => exact absurd hd List.not_mem_nil
    | succ n =>
      rcases List.mem_cons.mp hd with rfl | hd
      · decide
      · cases hdelimiter : isDelimiter d with
        | false => rfl
        | true =>
          have hdigit := Text.isDigit_of_mem_ofNat hd
          rw [isDigit_of_isDelimiter hdelimiter] at hdigit
          exact absurd hdigit Bool.false_ne_true

/-! ### Types -/

/-- The arity of a type: the number of its generic arguments or, where it has none, of its own
generic parameters. -/
def ownArity (parameters : List Text) (arguments : List TypeTerm) : Nat :=
  match arguments with
  | [] => parameters.length
  | first :: rest => (first :: rest).length

/-- A type whose names are plain and whose arity marks agree with its arguments and parameters.
What the header of a wrapper says is for display and may be anything. -/
inductive TypeTerm.WellFormed : TypeTerm → Prop where
  /-- A named type. -/
  | named {header : TypeHeader} {declaring : Option TypeTerm} {parameters : List Text}
      {arguments : List TypeTerm} (space : IsSpace header.space)
      (name : IsTypeName (ownArity parameters arguments) header.name)
      (lengths : parameters ≠ [] → arguments ≠ [] → parameters.length = arguments.length)
      (parameters_plain : ∀ name ∈ parameters, IsPlain name)
      (outer_named : ∀ outer ∈ declaring, outer.isNamed = true)
      (outer_wellFormed : ∀ outer ∈ declaring, WellFormed outer)
      (arguments_wellFormed : ∀ argument ∈ arguments, WellFormed argument) :
      WellFormed (.named header declaring parameters arguments)
  /-- A reference to a generic parameter. -/
  | genericParameter {header : TypeHeader} (name : IsPlain header.name) :
      WellFormed (.genericParameter header)
  /-- An array with at least one dimension. -/
  | array {header : TypeHeader} {element : TypeTerm} {rank : UInt32} (rank_ne : rank ≠ 0)
      (element_wellFormed : WellFormed element) : WellFormed (.array header element rank)
  /-- A pointer. -/
  | pointer {header : TypeHeader} {element : TypeTerm} (element_wellFormed : WellFormed element) :
      WellFormed (.pointer header element)
  /-- A by-reference type. -/
  | byRef {header : TypeHeader} {element : TypeTerm} (element_wellFormed : WellFormed element) :
      WellFormed (.byRef header element)

/-! ### References and lists -/

/-- A reference is written as the parameter it resolves to. -/
theorem GenericScope.reference_eq (scope : GenericScope) (name : Text) :
    scope.reference name = (scope.resolve name).map GenericReference.text := by
  simp only [reference, resolve]
  cases scope.ofMember.position? name with
  | some position => rfl
  | none => cases scope.ofType.position? name <;> rfl

/-- References to several generic parameters are written as the parameters they resolve to. -/
theorem mapM_reference_eq (scope : GenericScope) (names : List Text) :
    names.mapM scope.reference = (ofParameters scope names).map texts := by
  induction names with
  | nil => rfl
  | cons name names ih =>
    rw [List.mapM_cons, ih, scope.reference_eq, ofParameters]
    cases scope.resolve name with
    | error error => rfl
    | ok target => cases ofParameters scope names <;> rfl

/-- Types are written as their signatures where each of them is. -/
theorem writeAll_eq {form : NameForm} {scope : GenericScope} {types : List TypeTerm}
    (h : ∀ type ∈ types, write form scope type = (ofTerm form scope type).map text) :
    writeAll form scope types = (ofTerms form scope types).map texts := by
  induction types with
  | nil => rfl
  | cons type types ih =>
    rw [writeAll, ofTerms, h type List.mem_cons_self,
      ih fun other hother => h other (List.mem_cons_of_mem type hother)]
    cases ofTerm form scope type with
    | error error => rfl
    | ok signature => cases ofTerms form scope types <;> rfl

/-- The members of a list of signatures are signatures of types of the list. -/
theorem exists_of_mem_ofTerms {form : NameForm} {scope : GenericScope} {types : List TypeTerm}
    {signatures : List TypeSignature} (h : ofTerms form scope types = .ok signatures)
    {signature : TypeSignature} (hmem : signature ∈ signatures) :
    ∃ type ∈ types, ofTerm form scope type = .ok signature := by
  induction types generalizing signatures with
  | nil =>
    obtain rfl : [] = signatures := Except.ok.inj h
    exact absurd hmem List.not_mem_nil
  | cons type types ih =>
    rw [ofTerms, bind_eq_ok] at h
    obtain ⟨first, hfirst, h⟩ := h
    obtain ⟨rest, hrest, h⟩ := bind_eq_ok.mp h
    obtain rfl : first :: rest = signatures := Except.ok.inj h
    rcases List.mem_cons.mp hmem with rfl | hmem
    · exact ⟨type, List.mem_cons_self, hfirst⟩
    · obtain ⟨other, hother, hsignature⟩ := ih hrest hmem
      exact ⟨other, List.mem_cons_of_mem type hother, hsignature⟩

/-- The signatures of generic parameters are references. -/
theorem exists_reference_of_mem_ofParameters {scope : GenericScope} {names : List Text}
    {signatures : List TypeSignature} (h : ofParameters scope names = .ok signatures)
    {signature : TypeSignature} (hmem : signature ∈ signatures) :
    ∃ target, signature = reference target := by
  induction names generalizing signatures with
  | nil =>
    obtain rfl : [] = signatures := Except.ok.inj h
    exact absurd hmem List.not_mem_nil
  | cons name names ih =>
    rw [ofParameters, bind_eq_ok] at h
    obtain ⟨first, -, h⟩ := h
    obtain ⟨rest, hrest, h⟩ := bind_eq_ok.mp h
    obtain rfl : reference first :: rest = signatures := Except.ok.inj h
    rcases List.mem_cons.mp hmem with rfl | hmem
    · exact ⟨first, rfl⟩
    · exact ih hrest hmem

/-! ### Segments -/

/-- The segments of a legible signature have legible names and arguments. -/
theorem TypeSignature.Legible.of_mem_segments {signature : TypeSignature}
    (h : signature.Legible) {segment : Text × List TypeSignature}
    (hsegment : segment ∈ signature.segments) :
    IsSegmentName segment.1 ∧ ∀ argument ∈ segment.2, argument.Legible := by
  cases h with
  | reference target => exact absurd hsegment List.not_mem_nil
  | path hne hnames hargs => exact ⟨hnames segment hsegment, hargs segment hsegment⟩
  | wrapped hrank helement => exact absurd hsegment List.not_mem_nil

/-- A path with one more legible segment is legible. -/
theorem legible_path_append {outer : List (Text × List TypeSignature)} {name : Text}
    {listed : List TypeSignature}
    (houter : ∀ segment ∈ outer, IsSegmentName segment.1 ∧ ∀ argument ∈ segment.2, argument.Legible)
    (hname : IsSegmentName name) (hlisted : ∀ argument ∈ listed, argument.Legible) :
    (path (outer ++ [(name, listed)])).Legible := by
  refine .path (by simp) (fun segment hsegment => ?_) (fun segment hsegment => ?_)
  all_goals
    rcases List.mem_append.mp hsegment with hmem | hmem
  · exact (houter segment hmem).1
  · obtain rfl := List.mem_singleton.mp hmem
    exact hname
  · exact (houter segment hmem).2
  · obtain rfl := List.mem_singleton.mp hmem
    exact hlisted

/-- Names with dots between them are not empty where the first is not. -/
theorem intercalate_ne_nil {first : Text} (h : first ≠ []) (rest : List Text) :
    List.intercalate ['.'] (first :: rest) ≠ [] := by
  cases rest with
  | nil => simpa using h
  | cons second rest => simp [List.intercalate_cons_cons]

/-- The names of a namespace are its segments. -/
theorem ofSpace_intercalate {names : List Text} (h : ∀ name ∈ names, IsPlain name) :
    ofSpace (List.intercalate ['.'] names) = names.map fun name => (name, []) := by
  cases names with
  | nil => rfl
  | cons first rest =>
    rw [ofSpace, if_neg (intercalate_ne_nil (h first List.mem_cons_self).ne_nil rest),
      List.splitOn_intercalate '.' (fun name hname => (h name hname).not_mem (by decide)) (by simp)]

/-- The segments of a namespace have legible names and no arguments. -/
theorem IsSpace.of_mem_ofSpace {space : Text} (h : IsSpace space)
    {segment : Text × List TypeSignature} (hsegment : segment ∈ ofSpace space) :
    IsSegmentName segment.1 ∧ ∀ argument ∈ segment.2, argument.Legible := by
  obtain ⟨names, hnames, rfl⟩ := h
  rw [ofSpace_intercalate hnames] at hsegment
  obtain ⟨name, hname, rfl⟩ := List.mem_map.mp hsegment
  exact ⟨(hnames name hname).isSegmentName, fun argument h => absurd h List.not_mem_nil⟩

/-- The written form of the segments before the last, each with a dot behind it. -/
def qualifierText (segments : List (Text × List TypeSignature)) : Text :=
  (segmentTexts segments).flatMap fun segment => segment ++ ['.']

/-- The segments of two lists are written one list after the other. -/
theorem segmentTexts_append (segments others : List (Text × List TypeSignature)) :
    segmentTexts (segments ++ others) = segmentTexts segments ++ segmentTexts others := by
  induction segments with
  | nil => rfl
  | cons segment segments ih =>
    obtain ⟨name, arguments⟩ := segment
    simp [segmentTexts, ih]

/-- A list of texts with dots between them, and a dot behind the last. -/
theorem intercalate_append_dot {texts : List Text} (h : texts ≠ []) :
    List.intercalate ['.'] texts ++ ['.'] = texts.flatMap fun text => text ++ ['.'] := by
  induction texts with
  | nil => exact absurd rfl h
  | cons first rest ih =>
    cases rest with
    | nil => simp
    | cons second rest =>
      rw [List.intercalate_cons_cons, List.append_assoc, ih (by simp)]
      simp

/-- The text of a path is that of the segments before the last, and of the last. -/
theorem text_path_append (outer : List (Text × List TypeSignature)) (name : Text)
    (listed : List TypeSignature) :
    (path (outer ++ [(name, listed)])).text =
      qualifierText outer ++ (name ++ braces (texts listed)) := by
  simp only [text, segmentTexts_append, segmentTexts, qualifierText]
  induction segmentTexts outer with
  | nil => simp
  | cons first rest ih =>
    rw [List.cons_append, List.intercalate_cons_of_ne_nil (by simp), ih]
    simp

/-- The path of an enclosing type is written with a dot behind it. -/
theorem qualifierText_eq {segments : List (Text × List TypeSignature)} (h : segments ≠ []) :
    qualifierText segments = (path segments).text ++ ['.'] := by
  have hne : segmentTexts segments ≠ [] := by
    obtain ⟨⟨name, arguments⟩, rest, rfl⟩ := List.exists_cons_of_ne_nil h
    simp [segmentTexts]
  rw [qualifierText, text, intercalate_append_dot hne]

/-- A namespace is written with a dot behind it; the empty namespace is not written. -/
theorem IsSpace.qualifierText_eq {space : Text} (h : IsSpace space) :
    qualifierText (ofSpace space) = if space = [] then [] else space ++ ['.'] := by
  obtain ⟨names, hnames, rfl⟩ := h
  have htexts : segmentTexts (names.map fun name => (name, [])) = names := by
    clear hnames
    induction names with
    | nil => rfl
    | cons name names ih => simp [segmentTexts, texts, braces, ih]
  rw [ofSpace_intercalate hnames, qualifierText, htexts]
  cases names with
  | nil => rfl
  | cons first rest =>
    rw [if_neg (intercalate_ne_nil (hnames first List.mem_cons_self).ne_nil rest),
      intercalate_append_dot (by simp)]

/-! ### Named types -/

/-- The last segment of a named type: the name itself, with what is listed in braces. -/
def lastSegment (form : NameForm) (scope : GenericScope) (name : Text) (parameters : List Text)
    (arguments : List TypeTerm) : Except IdentifierError (Text × List TypeSignature) :=
  match form, arguments with
  | .definition, _ => .ok (name, [])
  | .signature, [] => (ofParameters scope parameters).map fun listed => (baseName name, listed)
  | .signature, first :: rest =>
    (ofTerms .signature scope (first :: rest)).map fun listed => (baseName name, listed)

/-- The signature of a named type has one more segment than what stands before its name. -/
theorem ofTerm_named (form : NameForm) (scope : GenericScope) (header : TypeHeader)
    (declaring : Option TypeTerm) (parameters : List Text) (arguments : List TypeTerm) :
    ofTerm form scope (.named header declaring parameters arguments) =
      (outerSegments form scope header.space declaring).bind fun outer =>
        (lastSegment form scope header.name parameters arguments).map fun last =>
          path (outer ++ [last]) := by
  rw [ofTerm]
  cases outerSegments form scope header.space declaring with
  | error error => rfl
  | ok outer =>
    cases form with
    | definition => rfl
    | signature =>
      cases arguments with
      | nil => simp only [lastSegment]; cases ofParameters scope parameters <;> rfl
      | cons first rest =>
        simp only [lastSegment]; cases ofTerms .signature scope (first :: rest) <;> rfl

/-- What a named type has a signature of. -/
theorem ofTerm_named_eq_ok {form : NameForm} {scope : GenericScope} {header : TypeHeader}
    {declaring : Option TypeTerm} {parameters : List Text} {arguments : List TypeTerm}
    {signature : TypeSignature}
    (h : ofTerm form scope (.named header declaring parameters arguments) = .ok signature) :
    ∃ outer last, outerSegments form scope header.space declaring = .ok outer ∧
      lastSegment form scope header.name parameters arguments = .ok last ∧
      signature = path (outer ++ [last]) := by
  rw [ofTerm_named] at h
  obtain ⟨outer, houter, h⟩ := bind_eq_ok.mp h
  obtain ⟨last, hlast, h⟩ := map_eq_ok.mp h
  exact ⟨outer, last, houter, hlast, h.symm⟩

/-- The signature of a named type is a path. -/
theorem exists_path_of_isNamed {form : NameForm} {scope : GenericScope} {type : TypeTerm}
    {signature : TypeSignature} (hnamed : type.isNamed = true)
    (h : ofTerm form scope type = .ok signature) :
    ∃ segments, segments ≠ [] ∧ signature = path segments := by
  cases type with
  | named header declaring parameters arguments =>
    obtain ⟨outer, last, -, -, rfl⟩ := ofTerm_named_eq_ok h
    exact ⟨_, by simp, rfl⟩
  | _ => exact absurd hnamed Bool.false_ne_true

/-- The arguments of a last segment are references to generic parameters or signatures of the
arguments of the type. -/
theorem of_mem_lastSegment {form : NameForm} {scope : GenericScope} {name : Text}
    {parameters : List Text} {arguments : List TypeTerm} {last : Text × List TypeSignature}
    (h : lastSegment form scope name parameters arguments = .ok last) {listed : TypeSignature}
    (hmem : listed ∈ last.2) :
    (∃ target, listed = reference target) ∨
      ∃ argument ∈ arguments, ofTerm form scope argument = .ok listed := by
  cases form with
  | definition =>
    obtain rfl := Except.ok.inj h
    exact absurd hmem List.not_mem_nil
  | signature =>
    cases arguments with
    | nil =>
      obtain ⟨signatures, hlisted, rfl⟩ := map_eq_ok.mp h
      exact .inl (exists_reference_of_mem_ofParameters hlisted hmem)
    | cons first rest =>
      obtain ⟨signatures, hlisted, rfl⟩ := map_eq_ok.mp h
      exact .inr (exists_of_mem_ofTerms hlisted hmem)

/-- The name of a last segment can be told from what stands around it. -/
theorem isSegmentName_lastSegment {form : NameForm} {scope : GenericScope} {name : Text}
    {parameters : List Text} {arguments : List TypeTerm} {last : Text × List TypeSignature}
    {arity : Nat} (hname : IsTypeName arity name)
    (h : lastSegment form scope name parameters arguments = .ok last) :
    IsSegmentName last.1 := by
  cases form with
  | definition =>
    obtain rfl := Except.ok.inj h
    exact hname.isSegmentName
  | signature =>
    have hlast : last.1 = baseName name := by
      cases arguments with
      | nil =>
        obtain ⟨signatures, -, rfl⟩ := map_eq_ok.mp h
        rfl
      | cons first rest =>
        obtain ⟨signatures, -, rfl⟩ := map_eq_ok.mp h
        rfl
    rw [hlast]
    exact hname.isPlain_baseName.isSegmentName

/-- The last part of the written name of a named type is the text of its last segment. -/
theorem write_named {form : NameForm} {scope : GenericScope} {header : TypeHeader}
    {declaring : Option TypeTerm} {parameters : List Text} {arguments : List TypeTerm} {arity : Nat}
    (hname : IsTypeName arity header.name)
    (harguments : ∀ argument ∈ arguments,
      write form scope argument = (ofTerm form scope argument).map text) :
    write form scope (.named header declaring parameters arguments) =
      (qualifier form scope header.space declaring).bind fun outer =>
        (lastSegment form scope header.name parameters arguments).map fun last =>
          outer ++ (last.1 ++ braces (texts last.2)) := by
  rw [write]
  cases qualifier form scope header.space declaring with
  | error error => rfl
  | ok outer =>
    cases form with
    | definition => simp [lastSegment, bind, Except.bind, Except.map, texts, braces]
    | signature =>
      cases arguments with
      | nil =>
        simp only [lastSegment, mapM_reference_eq, hname.withoutArity_eq]
        cases ofParameters scope parameters <;> simp [bind, Except.bind, Except.map]
      | cons first rest =>
        simp only [lastSegment, writeAll_eq harguments, hname.withoutArity_eq]
        cases ofTerms .signature scope (first :: rest) <;> simp [bind, Except.bind, Except.map]

/-! ### Signatures of well-formed types -/

/-- A wrapper over the signature of an element, where there is one, is legible where the element
is. -/
theorem legible_of_bind_wrapped {element : Except IdentifierError TypeSignature}
    {wrapper : Wrapper} {signature : TypeSignature} (hrank : wrapper ≠ .array 0)
    (helement : ∀ signed, element = .ok signed → signed.Legible)
    (h : (element >>= fun signed => .ok (.wrapped wrapper signed)) = .ok signature) :
    signature.Legible := by
  obtain ⟨signed, hsigned, h⟩ := bind_eq_ok.mp h
  obtain rfl : TypeSignature.wrapped wrapper signed = signature := Except.ok.inj h
  exact .wrapped hrank (helement signed hsigned)

namespace TypeTerm.WellFormed

/-- **The signature of a well-formed type can be read back.** -/
theorem legible {form : NameForm} {scope : GenericScope} {type : TypeTerm}
    (h : type.WellFormed) {signature : TypeSignature}
    (hsignature : ofTerm form scope type = .ok signature) : signature.Legible := by
  induction h generalizing signature with
  | @named header declaring parameters arguments hspace hname _ _ _ _ _ ihouter iharguments =>
    obtain ⟨outer, last, houter, hlast, rfl⟩ := ofTerm_named_eq_ok hsignature
    refine legible_path_append (fun segment hsegment => ?_) (isSegmentName_lastSegment hname hlast)
      fun listed hlisted => ?_
    · cases declaring with
      | none =>
        obtain rfl := Except.ok.inj houter
        exact hspace.of_mem_ofSpace hsegment
      | some enclosing =>
        rw [outerSegments, bind_eq_ok] at houter
        obtain ⟨signed, hsigned, heq⟩ := houter
        obtain rfl : signed.segments = outer := Except.ok.inj heq
        exact (ihouter enclosing rfl hsigned).of_mem_segments hsegment
    · obtain ⟨target, rfl⟩ | ⟨argument, hargument, hsigned⟩ := of_mem_lastSegment hlast hlisted
      · exact .reference target
      · exact iharguments argument hargument hsigned
  | @genericParameter header _ =>
    rw [ofTerm, bind_eq_ok] at hsignature
    obtain ⟨target, -, heq⟩ := hsignature
    obtain rfl : reference target = signature := Except.ok.inj heq
    exact .reference target
  | array hrank _ ih =>
    rw [ofTerm] at hsignature
    exact legible_of_bind_wrapped (by simpa using hrank) (fun _ => ih) hsignature
  | pointer _ ih =>
    rw [ofTerm] at hsignature
    exact legible_of_bind_wrapped (by simp) (fun _ => ih) hsignature
  | byRef _ ih =>
    rw [ofTerm] at hsignature
    exact legible_of_bind_wrapped (by simp) (fun _ => ih) hsignature

/-- **A well-formed type is written as its signature.**

**Proof sketch.** By induction on the type. What stands before the name of a named type is the text
of the segments of its enclosing type, which are not empty, or of its namespace, each with a dot
behind it. -/
theorem write_eq {form : NameForm} {scope : GenericScope} {type : TypeTerm}
    (h : type.WellFormed) : write form scope type = (ofTerm form scope type).map text := by
  induction h with
  | @named header declaring parameters arguments hspace hname _ _ hnamed _ _ ihouter iharguments =>
    have hqualifier : qualifier form scope header.space declaring =
        (outerSegments form scope header.space declaring).map qualifierText := by
      cases declaring with
      | none =>
        rw [outerSegments, Except.map, hspace.qualifierText_eq]
        cases header.space <;> simp [qualifier]
      | some enclosing =>
        rw [qualifier, outerSegments, ihouter enclosing rfl]
        cases hsigned : ofTerm form scope enclosing with
        | error error => rfl
        | ok signed =>
          obtain ⟨segments, hne, rfl⟩ := exists_path_of_isNamed (hnamed enclosing rfl) hsigned
          simp [bind, Except.bind, Except.map, TypeSignature.segments, qualifierText_eq hne]
    rw [write_named hname iharguments, ofTerm_named, hqualifier]
    cases outerSegments form scope header.space declaring with
    | error error => rfl
    | ok outer =>
      cases lastSegment form scope header.name parameters arguments with
      | error error => rfl
      | ok last =>
        obtain ⟨name, listed⟩ := last
        simp [Except.bind, Except.map, text_path_append]
  | @genericParameter header _ =>
    rw [write, ofTerm, scope.reference_eq]
    cases scope.resolve header.name <;> rfl
  | @array header element rank hrank _ ih =>
    rw [write, ofTerm, ih]
    cases ofTerm form scope element with
    | error error => rfl
    | ok signed => simp [bind, Except.bind, Except.map, hrank, text, Wrapper.text]
  | @pointer header element _ ih =>
    rw [write, ofTerm, ih]
    cases ofTerm form scope element <;> rfl
  | @byRef header element _ ih =>
    rw [write, ofTerm, ih]
    cases ofTerm form scope element <;> rfl

end TypeTerm.WellFormed

end SymbolDocs
