import SymbolDocs.Proofs.Identifier.SymbolText
set_option autoImplicit false

/-!
# Identifiers separate signatures

Two well-formed symbols have one identifier exactly when they have one signature. An identifier
therefore tells overloads apart by their parameters, generic methods by their arity and conversion
operators by their results, and nothing else about the symbol.

## Main definitions

* `Symbol.WellFormed` — symbols of well-formed types and plain names.

## Main results

* `Symbol.WellFormed.legible` — the signature of a well-formed symbol can be read back.
* `Symbol.WellFormed.ofSymbol_eq` — a well-formed symbol is identified by the text of its signature.
* `identifier_eq_iff_signature_eq` — identifiers separate symbols exactly up to their signature.

## Design

A property, a field or an event is known by the flattened full name of its declaring type, which
drops what an array, a pointer or a by-reference type adds to its element. Its declaring type must
therefore be a named type; that of a method or constructor may be any.
-/

namespace SymbolDocs

open Naming TypeSignature

/-! ### Well-formed symbols -/

/-- A method whose name is plain and whose types are well formed. -/
structure Method.WellFormed (method : Method) : Prop where
  /-- The name is plain. -/
  name : IsPlain method.name
  /-- The declaring type is well formed. -/
  declaring : method.declaring.WellFormed
  /-- The types of the parameters are well formed. -/
  parameters : ∀ parameter ∈ method.parameters, parameter.type.WellFormed
  /-- The type of the result is well formed. -/
  returns : ∀ type ∈ method.returns, type.WellFormed

/-- A constructor whose types are well formed. -/
structure Constructor.WellFormed (constructor : Constructor) : Prop where
  /-- The declaring type is well formed. -/
  declaring : constructor.declaring.WellFormed
  /-- The types of the parameters are well formed. -/
  parameters : ∀ parameter ∈ constructor.parameters, parameter.type.WellFormed

/-- A property, field or event of a plain name on a well-formed named type. -/
structure PlainMember.WellFormed (member : PlainMember) : Prop where
  /-- The name is plain. -/
  name : IsPlain member.name
  /-- The declaring type is a named type. -/
  declaring_named : member.declaring.isNamed = true
  /-- The declaring type is well formed. -/
  declaring : member.declaring.WellFormed

/-- A symbol of well-formed types and plain names. -/
def Symbol.WellFormed : Symbol → Prop
  | .type t => t.WellFormed
  | .member (.method m) => m.WellFormed
  | .member (.constructor c) => c.WellFormed
  | .member (.property p) => p.WellFormed
  | .member (.field f) => f.WellFormed
  | .member (.event e) => e.WellFormed

/-! ### Named declaring types -/

namespace TypeTerm.WellFormed

/-- The types along the nesting of a well-formed named type are well formed and named. -/
theorem of_mem_nesting {type : TypeTerm} (h : type.WellFormed) (hnamed : type.isNamed = true) :
    ∀ t ∈ type.nesting, t.WellFormed ∧ t.isNamed = true := by
  induction h with
  | @named header declaring parameters arguments hspace hname hlengths hparameters houterNamed
      houter harguments ihouter iharguments =>
    have hself : (TypeTerm.named header declaring parameters arguments).WellFormed :=
      .named hspace hname hlengths hparameters houterNamed houter harguments
    intro t ht
    cases declaring with
    | none =>
      obtain rfl : t = _ := by simpa [nesting] using ht
      exact ⟨hself, rfl⟩
    | some outer =>
      rw [nesting, List.mem_append, List.mem_singleton] at ht
      rcases ht with ht | rfl
      · exact ihouter outer rfl (houterNamed outer rfl) t ht
      · exact ⟨hself, rfl⟩
  | _ => exact absurd hnamed Bool.false_ne_true

/-- A character other than those between names stands neither in a namespace nor in the name of a
well-formed named type when it is reserved and no part of an arity mark. -/
theorem not_mem_name {type : TypeTerm} (h : type.WellFormed) (hnamed : type.isNamed = true)
    {c : Char} (hc : c ∈ reserved) (htick : c ≠ '\x60') (hdigit : c.isDigit = false) :
    c ∉ type.name := by
  cases h with
  | named _ hname =>
    obtain ⟨base, hbase, heq⟩ := hname
    simp only [TypeTerm.name, TypeTerm.header, heq, List.mem_append, not_or]
    refine ⟨hbase.not_mem hc, fun hmark => ?_⟩
    unfold arityMark at hmark
    split at hmark
    · exact absurd hmark List.not_mem_nil
    · rcases List.mem_cons.mp hmark with rfl | hmark
      · exact htick rfl
      · rw [Text.isDigit_of_mem_ofNat hmark] at hdigit
        exact absurd hdigit.symm Bool.false_ne_true
  | _ => exact absurd hnamed Bool.false_ne_true

/-- A reserved character other than the dot does not stand in a namespace. -/
theorem not_mem_space {type : TypeTerm} (h : type.WellFormed) (hnamed : type.isNamed = true)
    {c : Char} (hc : c ∈ reserved) (hdot : c ≠ '.') : c ∉ type.space := by
  cases h with
  | named hspace =>
    obtain ⟨names, hnames, heq⟩ := hspace
    simp only [TypeTerm.space, TypeTerm.header, heq]
    intro hmem
    rcases Text.mem_of_mem_intercalate hmem with hsep | ⟨name, hname, hin⟩
    · exact hdot (List.mem_singleton.mp hsep)
    · exact (hnames name hname).not_mem hc hin
  | _ => exact absurd hnamed Bool.false_ne_true

/-- No line feed stands in the full name of a well-formed type, or of an argument along its
nesting. -/
theorem lineFeed_not_mem_fullName {type : TypeTerm} (h : type.WellFormed) :
    '\n' ∉ type.fullName ∧ ∀ t ∈ type.nesting.flatMap arguments, '\n' ∉ t.fullName := by
  induction h with
  | @named header declaring parameters arguments hspace hname hlengths hparameters houterNamed
      houter harguments ihouter iharguments =>
    have hself : (TypeTerm.named header declaring parameters arguments).WellFormed :=
      .named hspace hname hlengths hparameters houterNamed houter harguments
    have hnesting := hself.of_mem_nesting rfl
    have hlist : ∀ t ∈ (TypeTerm.named header declaring parameters arguments).nesting.flatMap
        TypeTerm.arguments, '\n' ∉ t.fullName := by
      intro t ht
      cases declaring with
      | none => exact (iharguments t (by simpa [nesting, TypeTerm.arguments] using ht)).1
      | some outer =>
        rw [nesting, List.flatMap_append, List.mem_append] at ht
        rcases ht with ht | ht
        · exact (ihouter outer rfl).2 t ht
        · exact (iharguments t (by simpa [TypeTerm.arguments] using ht)).1
    have houtermost := hnesting _ (outermost_mem_nesting _)
    refine ⟨?_, hlist⟩
    rw [fullName_named, List.mem_append]
    rintro (hmem | hmem)
    · exact not_mem_qualifiedPath (by decide) (by decide)
        (fun t ht => (hnesting t ht).1.not_mem_name (hnesting t ht).2 (by decide) (by decide) rfl)
        (houtermost.1.not_mem_space houtermost.2 (by decide) (by decide)) hmem
    · rcases mem_argumentBrackets hmem with hbracket | ⟨name, hname, hin⟩
      · exact absurd hbracket (by decide)
      · obtain ⟨t, ht, rfl⟩ := List.mem_map.mp hname
        exact hlist t ht hin
  | genericParameter hname =>
    exact ⟨hname.not_mem (by decide), by simp [nesting, TypeTerm.arguments]⟩
  | array _ _ ih =>
    refine ⟨?_, by simp [nesting, TypeTerm.arguments]⟩
    rw [fullName, List.mem_append]
    rintro (hmem | hmem)
    · exact ih.1 hmem
    · simp [arrayBrackets] at hmem
  | pointer _ ih =>
    exact ⟨by simpa [fullName] using ih.1, by simp [nesting, TypeTerm.arguments]⟩
  | byRef _ ih =>
    exact ⟨by simpa [fullName] using ih.1, by simp [nesting, TypeTerm.arguments]⟩

/-- **The flattened full name of a well-formed named type is its written name as a definition**, in
any scope. -/
theorem write_definition_eq_flatten {type : TypeTerm} (h : type.WellFormed)
    (hnamed : type.isNamed = true) (scope : GenericScope) :
    write .definition scope type = .ok (FullName.flatten type.fullName) := by
  have hnesting := h.of_mem_nesting hnamed
  have houtermost := hnesting _ (outermost_mem_nesting type)
  rw [write_definition scope fun t ht => (hnesting t ht).2, flatten_fullName hnamed]
  · exact fun t ht =>
      ⟨(hnesting t ht).1.not_mem_name (hnesting t ht).2 (by decide) (by decide) rfl,
        (hnesting t ht).1.not_mem_name (hnesting t ht).2 (by decide) (by decide) rfl⟩
  · exact ⟨houtermost.1.not_mem_space houtermost.2 (by decide) (by decide),
      houtermost.1.not_mem_space houtermost.2 (by decide) (by decide)⟩
  · exact h.lineFeed_not_mem_fullName.2

end TypeTerm.WellFormed

/-! ### Parameters and results -/

namespace Identifier

open SymbolSignature

/-- The parameters of a callable are written as the list of their signatures. -/
theorem signature_eq {scope : GenericScope} {parameters : List Parameter}
    (h : ∀ parameter ∈ parameters, parameter.type.WellFormed) :
    signature scope parameters =
      (ofTerms .signature scope (parameters.map Parameter.type)).map listText := by
  have hnames : ∀ ps : List Parameter, (∀ p ∈ ps, p.type.WellFormed) →
      (ps.mapM fun p => write .signature scope p.type) =
        (ofTerms .signature scope (ps.map Parameter.type)).map texts := by
    intro ps hps
    induction ps with
    | nil => rfl
    | cons p ps ih =>
      rw [List.mapM_cons, ih fun q hq => hps q (List.mem_cons_of_mem p hq),
        (hps p List.mem_cons_self).write_eq, List.map_cons, ofTerms]
      cases ofTerm .signature scope p.type with
      | error error => rfl
      | ok first => cases ofTerms .signature scope (ps.map Parameter.type) <;> rfl
  cases parameters with
  | nil => rfl
  | cons first rest =>
    rw [signature, hnames (first :: rest) h]
    · rw [List.map_cons, ofTerms]
      cases ofTerm .signature scope first.type with
      | error error => rfl
      | ok signed => cases ofTerms .signature scope (rest.map Parameter.type) <;> rfl
    · simp

/-- The generic parameters of a method are written as their number. -/
theorem genericArity_eq (generics : List Text) :
    genericArity generics = arityText generics.length := by
  cases generics <;> rfl

/-- The result of a conversion operator is written as its signature. -/
theorem conversionResult_eq {scope : GenericScope} {method : Method}
    (h : ∀ type ∈ method.returns, type.WellFormed) :
    conversionResult scope method = (ofResult scope method).map resultText := by
  rw [conversionResult, ofResult]
  split
  · cases hreturns : method.returns with
    | none => rfl
    | some type =>
      simp only [(h type hreturns).write_eq]
      cases ofTerm .signature scope type <;> rfl
  · rfl

end Identifier

/-! ### Legible signatures of symbols -/

/-- The signatures of the parameters of a callable are legible. -/
theorem legible_of_mem_parameters {scope : GenericScope} {parameters : List Parameter}
    {signatures : List TypeSignature}
    (h : ∀ parameter ∈ parameters, parameter.type.WellFormed)
    (hsignatures : ofTerms .signature scope (parameters.map Parameter.type) = .ok signatures) :
    ∀ signature ∈ signatures, signature.Legible := by
  intro signature hmem
  obtain ⟨type, htype, hsigned⟩ := exists_of_mem_ofTerms hsignatures hmem
  obtain ⟨parameter, hparameter, rfl⟩ := List.mem_map.mp htype
  exact (h parameter hparameter).legible hsigned

/-- The signature of the result of a conversion operator is legible. -/
theorem legible_of_ofResult {scope : GenericScope} {method : Method}
    {result : Option TypeSignature} (h : ∀ type ∈ method.returns, type.WellFormed)
    (hresult : SymbolSignature.ofResult scope method = .ok result) :
    ∀ signature ∈ result, signature.Legible := by
  rw [SymbolSignature.ofResult] at hresult
  split at hresult
  · cases hreturns : method.returns with
    | none => simp [hreturns] at hresult
    | some type =>
      rw [hreturns] at hresult
      obtain ⟨signed, hsigned, heq⟩ := bind_eq_ok.mp hresult
      obtain rfl : some signed = result := Except.ok.inj heq
      intro signature hmem
      obtain rfl : signed = signature := by simpa using hmem
      exact (h type hreturns).legible hsigned
  · obtain rfl : none = result := Except.ok.inj hresult
    intro signature hmem
    simp at hmem

/-- **The signature of a well-formed symbol can be read back.** -/
theorem Symbol.WellFormed.legible {symbol : Symbol} (h : symbol.WellFormed)
    {signature : SymbolSignature} (hsignature : SymbolSignature.ofSymbol symbol = .ok signature) :
    signature.Legible := by
  -- a property, a field and an event differ in their kind alone
  have hplain : ∀ (kind : SymbolKind) (member : PlainMember),
      kind ∈ [SymbolKind.property, .field, .event] → member.WellFormed →
        SymbolSignature.ofPlainMember kind member = .ok signature → signature.Legible := by
    intro kind member hkind hmember hsigned
    obtain ⟨declaring, hdeclaring, heq⟩ := bind_eq_ok.mp hsigned
    obtain rfl : .plain kind declaring member.name = signature := Except.ok.inj heq
    exact ⟨hkind, hmember.declaring.legible hdeclaring, hmember.name⟩
  match symbol with
  | .type term =>
    obtain ⟨signed, hsigned, heq⟩ := bind_eq_ok.mp hsignature
    obtain rfl : SymbolSignature.type signed = signature := Except.ok.inj heq
    exact TypeTerm.WellFormed.legible h hsigned
  | .member (.method method) =>
    obtain ⟨declaring, hdeclaring, hsignature⟩ := bind_eq_ok.mp hsignature
    obtain ⟨parameters, hparameters, hsignature⟩ := bind_eq_ok.mp hsignature
    obtain ⟨result, hresult, heq⟩ := bind_eq_ok.mp hsignature
    obtain rfl := Except.ok.inj heq
    exact ⟨h.declaring.legible hdeclaring, h.name,
      legible_of_mem_parameters h.parameters hparameters, legible_of_ofResult h.returns hresult⟩
  | .member (.constructor constructor) =>
    obtain ⟨declaring, hdeclaring, hsignature⟩ := bind_eq_ok.mp hsignature
    obtain ⟨parameters, hparameters, heq⟩ := bind_eq_ok.mp hsignature
    obtain rfl := Except.ok.inj heq
    exact ⟨h.declaring.legible hdeclaring, legible_of_mem_parameters h.parameters hparameters⟩
  | .member (.property m) => exact hplain .property m (by decide) h hsignature
  | .member (.field m) => exact hplain .field m (by decide) h hsignature
  | .member (.event m) => exact hplain .event m (by decide) h hsignature

/-! ### Symbols are written as their signatures -/

/-- A well-formed method is identified by the text of its signature. -/
theorem Method.WellFormed.ofMethod_eq {method : Method} (h : method.WellFormed) :
    Identifier.ofMethod method = (SymbolSignature.ofMethod method).map SymbolSignature.text := by
  rw [Identifier.ofMethod, SymbolSignature.ofMethod, h.declaring.write_eq,
    Identifier.signature_eq h.parameters, Identifier.conversionResult_eq h.returns,
    Identifier.genericArity_eq]
  generalize GenericScope.forMethod method = scope
  cases ofTerm .definition scope method.declaring with
  | error error => rfl
  | ok declaring =>
    cases ofTerms .signature scope (method.parameters.map Parameter.type) with
    | error error => rfl
    | ok parameters =>
      cases SymbolSignature.ofResult scope method with
      | error error => rfl
      | ok result =>
        simp [bind, Except.bind, Except.map, SymbolSignature.text, SymbolSignature.kind,
          SymbolSignature.body, SymbolSignature.callableText]

/-- A well-formed constructor is identified by the text of its signature. -/
theorem Constructor.WellFormed.ofConstructor_eq {constructor : Constructor}
    (h : constructor.WellFormed) :
    Identifier.ofConstructor constructor =
      (SymbolSignature.ofConstructor constructor).map SymbolSignature.text := by
  rw [Identifier.ofConstructor, SymbolSignature.ofConstructor, h.declaring.write_eq,
    Identifier.signature_eq h.parameters]
  generalize GenericScope.forConstructor constructor = scope
  cases ofTerm .definition scope constructor.declaring with
  | error error => rfl
  | ok declaring =>
    cases ofTerms .signature scope (constructor.parameters.map Parameter.type) with
    | error error => rfl
    | ok parameters =>
      simp [bind, Except.bind, Except.map, SymbolSignature.text, SymbolSignature.kind,
        SymbolSignature.body, SymbolSignature.callableText, SymbolSignature.arityText,
        SymbolSignature.resultText]

/-- A well-formed property, field or event is identified by the text of its signature. -/
theorem PlainMember.WellFormed.ofPlainMember_eq {member : PlainMember} (h : member.WellFormed)
    (kind : SymbolKind) :
    .ok (Identifier.ofPlainMember kind member) =
      (SymbolSignature.ofPlainMember kind member).map SymbolSignature.text := by
  have hflatten := h.declaring.write_definition_eq_flatten h.declaring_named {}
  rw [h.declaring.write_eq] at hflatten
  obtain ⟨declaring, hdeclaring, htext⟩ := map_eq_ok.mp hflatten
  rw [SymbolSignature.ofPlainMember, hdeclaring, Identifier.ofPlainMember, ← htext]
  simp [bind, Except.bind, Except.map, SymbolSignature.text, SymbolSignature.kind,
    SymbolSignature.body]

/-- **A well-formed symbol is identified by the text of its signature.** -/
theorem Symbol.WellFormed.ofSymbol_eq {symbol : Symbol} (h : symbol.WellFormed) :
    Identifier.ofSymbol symbol = (SymbolSignature.ofSymbol symbol).map SymbolSignature.text := by
  match symbol with
  | .type term =>
    rw [Identifier.ofSymbol, Identifier.ofType, SymbolSignature.ofSymbol,
      TypeTerm.WellFormed.write_eq h]
    cases ofTerm .definition (.forType term) term <;> rfl
  | .member (.method _) => exact Method.WellFormed.ofMethod_eq h
  | .member (.constructor _) => exact Constructor.WellFormed.ofConstructor_eq h
  | .member (.property _) => exact PlainMember.WellFormed.ofPlainMember_eq h .property
  | .member (.field _) => exact PlainMember.WellFormed.ofPlainMember_eq h .field
  | .member (.event _) => exact PlainMember.WellFormed.ofPlainMember_eq h .event

/-! ### Separation -/

/-- The method `Map<U>` of a generic type `Box<T>`, over a function between two named generic
parameters. -/
def boxMapping (source target : Text) : Method where
  name := "Map".toList
  declaring := .named ⟨"Box`1".toList, "Sample".toList, false⟩ none ["T".toList] []
  generics := ["U".toList]
  parameters := [⟨"function".toList, .named ⟨"Func`2".toList, "System".toList, false⟩ none []
    [.genericParameter ⟨source, [], false⟩, .genericParameter ⟨target, [], false⟩]⟩]

/-- A plain name is a namespace. -/
theorem isSpace_singleton {name : Text} (h : IsPlain name) : IsSpace name :=
  ⟨[name], by simpa using h, by simp⟩

/-- Mappings between generic parameters of plain names are well formed. -/
theorem wellFormed_boxMapping {source target : Text} (hsource : IsPlain source)
    (htarget : IsPlain target) : (boxMapping source target).WellFormed where
  name := show IsPlain "Map".toList by decide
  declaring := .named (isSpace_singleton (by decide)) ⟨"Box".toList, by decide, rfl⟩
    (by simp) (by simpa using (show IsPlain "T".toList by decide)) (by simp) (by simp) (by simp)
  parameters := by
    intro parameter hparameter
    obtain rfl := List.mem_singleton.mp hparameter
    refine .named (isSpace_singleton (by decide))
      ⟨"Func".toList, by decide, show "Func\x602".toList = "Func".toList ++ arityMark 2 by decide⟩
      (by simp) (by simp) (by simp) (by simp) ?_
    intro argument hargument
    simp only [List.mem_cons, List.not_mem_nil, or_false] at hargument
    rcases hargument with rfl | rfl
    · exact .genericParameter hsource
    · exact .genericParameter htarget
  returns := by simp [boxMapping]

/-- **Identifiers separate symbols exactly up to their signature.** A well-formed type has a written
name exactly when it has a signature, and two of them have one written name exactly when they have
one signature; so do well-formed symbols and their identifiers.

**Proof sketch.** What is written is the text of the signature, and the signatures of well-formed
types and symbols are legible. -/
theorem identifier_eq_iff_signature_eq :
    (∀ (form : NameForm) (scope₁ scope₂ : GenericScope) (type₁ type₂ : TypeTerm),
      type₁.WellFormed → type₂.WellFormed →
        (write form scope₁ type₁).isOk = (ofTerm form scope₁ type₁).isOk ∧
          (write form scope₁ type₁ = write form scope₂ type₂ ↔
            ofTerm form scope₁ type₁ = ofTerm form scope₂ type₂)) ∧
    ∀ symbol₁ symbol₂ : Symbol, symbol₁.WellFormed → symbol₂.WellFormed →
      (Identifier.ofSymbol symbol₁).isOk = (SymbolSignature.ofSymbol symbol₁).isOk ∧
        (Identifier.ofSymbol symbol₁ = Identifier.ofSymbol symbol₂ ↔
          SymbolSignature.ofSymbol symbol₁ = SymbolSignature.ofSymbol symbol₂) := by
  refine ⟨fun form scope₁ scope₂ type₁ type₂ h₁ h₂ => ?_, fun symbol₁ symbol₂ h₁ h₂ => ?_⟩
  · rw [h₁.write_eq, h₂.write_eq]
    refine ⟨isOk_map _ _, map_eq_map_iff fun signature₁ signature₂ hs₁ hs₂ htext => ?_⟩
    exact TypeSignature.text_injective (h₁.legible hs₁) (h₂.legible hs₂) htext
  · rw [h₁.ofSymbol_eq, h₂.ofSymbol_eq]
    refine ⟨isOk_map _ _, map_eq_map_iff fun signature₁ signature₂ hs₁ hs₂ htext => ?_⟩
    exact SymbolSignature.text_injective (h₁.legible hs₁) (h₂.legible hs₂) htext

/-- The two directions of mapping between the generic parameters of the type and of the method have
different identifiers. -/
theorem identifier_boxMapping_ne :
    Identifier.ofSymbol (.member (.method (boxMapping "T".toList "U".toList))) ≠
      Identifier.ofSymbol (.member (.method (boxMapping "U".toList "T".toList))) := by
  have hT : IsPlain "T".toList := by decide
  have hU : IsPlain "U".toList := by decide
  intro h
  have hsignature := (identifier_eq_iff_signature_eq.2 (.member (.method _))
    (.member (.method _)) (wellFormed_boxMapping hT hU) (wellFormed_boxMapping hU hT)).2.mp h
  cases hsignature

end SymbolDocs
