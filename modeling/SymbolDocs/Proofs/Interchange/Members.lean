import SymbolDocs.Interchange.Members
import SymbolDocs.Proofs.Interchange.Types
set_option autoImplicit false

/-!
# Decoding written members

A parameter, a method, a constructor and a plain member are decoded from the fields of their record,
and a member from its tag and the record beside it.

## Main results

* `Interchange.written_ofMember` — the value of a member is a written one.
* `Interchange.decodes_parameter`, `Interchange.decodes_method`, `Interchange.decodes_constructor`,
  `Interchange.decodes_plainMember` — the parts of members are decoded from their values.
* `Interchange.decodes_tagged` — a member is decoded by its tag.
* `Interchange.decodes_member` — every member is decoded from its value.
-/

namespace SymbolDocs

namespace Interchange

open Json

/-! ### Written values -/

/-- A parameter is written as JSON that can be read back. -/
theorem written_ofParameter (parameter : Parameter) : Written (ofParameter parameter) := by
  apply written_record
  simp only [List.forall_mem_cons]
  exact ⟨.string _, written_ofType _, List.forall_mem_nil _⟩

/-- So is a list of parameters. -/
theorem written_ofParameters (parameters : List Parameter) :
    Written (.array (parameters.map ofParameter)) :=
  .array (List.forall_mem_map.mpr fun parameter _ => written_ofParameter parameter)

/-- So is every field of a method. -/
theorem written_methodFields (method : Method) :
    ∀ field ∈ methodFields method, Written field.2 := by
  simp only [methodFields, List.forall_mem_cons]
  refine ⟨.string _, written_ofType _, written_ofTexts _, written_ofParameters _,
    written_ofOption ?_, List.forall_mem_nil _⟩
  simp [written_ofType]

/-- So is every field of a constructor. -/
theorem written_constructorFields (constructor : Constructor) :
    ∀ field ∈ constructorFields constructor, Written field.2 := by
  simp only [constructorFields, List.forall_mem_cons]
  exact ⟨written_ofType _, written_ofParameters _, List.forall_mem_nil _⟩

/-- So is every field of a property, a field or an event. -/
theorem written_plainMemberFields (member : PlainMember) :
    ∀ field ∈ plainMemberFields member, Written field.2 := by
  simp only [plainMemberFields, List.forall_mem_cons]
  exact ⟨.string _, written_ofType _, List.forall_mem_nil _⟩

/-- **The value of a member is a written one.** -/
theorem written_ofMember (member : Member) : Written (ofMember member) := by
  cases member with
  | method method =>
    exact written_record (List.forall_mem_cons.mpr ⟨.string _, written_methodFields method⟩)
  | constructor constructor =>
    exact written_record
      (List.forall_mem_cons.mpr ⟨.string _, written_constructorFields constructor⟩)
  | property member | field member | event member =>
    exact written_record (List.forall_mem_cons.mpr ⟨.string _, written_plainMemberFields member⟩)

/-! ### Records -/

/-- A parameter is decoded from what is written for it. -/
theorem decodes_parameter (p : Parameter) : Decodes parameter (ofParameter p) p := by
  refine decodes_record ⟨some p.name, some p.type⟩ (fun inner hadmits => ?_) fun _ => rfl
  simp only [List.map_cons, List.forall_mem_cons] at hadmits
  obtain ⟨-, htype, -⟩ := hadmits
  have htype := decodes_type p.type inner htype
  simp [ParameterDraft.put, fill, htype, bind, Except.bind, Except.map, pure, Except.pure]

/-- A list of parameters is decoded from what is written for it. -/
theorem decodes_parameters (parameters : List Parameter) :
    Decodes (list parameter) (.array (parameters.map ofParameter)) parameters :=
  decodes_list fun p _ => decodes_parameter p

/-- A list of texts is decoded from what is written for it. -/
theorem decodes_texts (texts : List Text) : Decodes (list text) (ofTexts texts) texts :=
  decodes_list fun value _ => decodes_text value

/-- The result of a method, which may be missing, is decoded from what is written for it. -/
theorem decodes_result (returns : Option TypeTerm) :
    Decodes (optional type) (ofOption (returns.map ofType)) returns :=
  decodes_optional (fun t _ => decodes_type t) fun t _ => ofType_ne_null t

/-- A method is decoded from what is written for it. -/
theorem decodes_method (m : Method) : Decodes method (ofMethod m) m := by
  refine decodes_record ⟨some m.name, some m.declaring, some m.generics, some m.parameters,
    some m.returns⟩ (fun inner hadmits => ?_) fun _ => rfl
  simp only [methodFields, List.map_cons, List.forall_mem_cons] at hadmits
  obtain ⟨-, hdeclaring, hgenerics, hparameters, hreturns, -⟩ := hadmits
  have hdeclaring := decodes_type m.declaring inner hdeclaring
  have hgenerics := decodes_texts m.generics inner hgenerics
  have hparameters := decodes_parameters m.parameters inner hparameters
  have hreturns := decodes_result m.returns inner hreturns
  simp [methodFields, MethodDraft.put, fill, hdeclaring, hgenerics, hparameters, hreturns, bind,
    Except.bind, Except.map, pure, Except.pure]

/-- A constructor is decoded from what is written for it. -/
theorem decodes_constructor (c : Constructor) : Decodes constructor (ofConstructor c) c := by
  refine decodes_record ⟨some c.declaring, some c.parameters⟩ (fun inner hadmits => ?_) fun _ => rfl
  simp only [constructorFields, List.map_cons, List.forall_mem_cons] at hadmits
  obtain ⟨hdeclaring, hparameters, -⟩ := hadmits
  have hdeclaring := decodes_type c.declaring inner hdeclaring
  have hparameters := decodes_parameters c.parameters inner hparameters
  simp [constructorFields, ConstructorDraft.put, fill, hdeclaring, hparameters, bind, Except.bind,
    Except.map, pure, Except.pure]

/-- A property, a field or an event is decoded from what is written for it. -/
theorem decodes_plainMember (p : PlainMember) : Decodes plainMember (ofPlainMember p) p := by
  refine decodes_record ⟨some p.name, some p.declaring⟩ (fun inner hadmits => ?_) fun _ => rfl
  simp only [plainMemberFields, List.map_cons, List.forall_mem_cons] at hadmits
  obtain ⟨-, hdeclaring, -⟩ := hadmits
  have hdeclaring := decodes_type p.declaring inner hdeclaring
  simp [plainMemberFields, PlainMemberDraft.put, fill, hdeclaring, bind, Except.bind, Except.map,
    pure, Except.pure]

/-! ### Members -/

/-- **A member is decoded by its tag**, where the record beside the tag is. -/
theorem decodes_tagged (name : String) {decode : Json → Except DecodeError Member}
    {fields : List (String × Json)} {result : Member}
    (hkind : variant memberKinds name.toList = .ok decode)
    (hplain : ∀ field ∈ fields, field.1 ≠ "kind") (hwritten : ∀ field ∈ fields, Written field.2)
    (h : decode (record fields) = .ok result) :
    Decodes member (record (("kind", .string name.toList) :: fields)) result := by
  intro origin hadmits
  have huntagged := ne_tagName_of_ne_kind hplain
  have htag := objectTag_cons hkind huntagged (List.forall_mem_map.mpr hwritten) hadmits
  rw [record_cons, member]
  refine bind_eq_ok.mpr ⟨decode, htag, ?_⟩
  have hrest : untagged ((tagName, .string name.toList) ::
      fields.map fun field => (field.1.toList, field.2)) = _ := untagged_cons huntagged
  rw [← h, record]
  exact congrArg (fun rest => decode (.object rest)) hrest

/-- **Every member is decoded from its value.** -/
theorem decodes_member (m : Member) : Decodes member (ofMember m) m := by
  cases m with
  | method m =>
    exact decodes_tagged "method" rfl (by simp [methodFields]) (written_methodFields m)
      (map_eq_ok.mpr ⟨m, decodes_method m .content trivial, rfl⟩)
  | constructor c =>
    exact decodes_tagged "constructor" rfl (by simp [constructorFields])
      (written_constructorFields c)
      (map_eq_ok.mpr ⟨c, decodes_constructor c .content trivial, rfl⟩)
  | property p =>
    exact decodes_tagged "property" rfl (by simp [plainMemberFields]) (written_plainMemberFields p)
      (map_eq_ok.mpr ⟨p, decodes_plainMember p .content trivial, rfl⟩)
  | field p =>
    exact decodes_tagged "field" rfl (by simp [plainMemberFields]) (written_plainMemberFields p)
      (map_eq_ok.mpr ⟨p, decodes_plainMember p .content trivial, rfl⟩)
  | event p =>
    exact decodes_tagged "event" rfl (by simp [plainMemberFields]) (written_plainMemberFields p)
      (map_eq_ok.mpr ⟨p, decodes_plainMember p .content trivial, rfl⟩)

end Interchange

end SymbolDocs
