import SymbolDocs.Interchange.Types
import SymbolDocs.Proofs.Json.Decoding
set_option autoImplicit false

/-!
# Decoding written types

A type is decoded from its value. Its header and its shape are decoded apart, and the types inside
the shape by induction on the type.

## Main results

* `Interchange.written_ofType` — the value of a type is a written one.
* `Interchange.decodes_shape` — a shape that begins with its tag is decoded by its kind.
* `Interchange.decodes_ofHeader` — a type is decoded from its header and its shape.
* `Interchange.decodes_type` — every type is decoded from its value.

## Design

A shape is taken up as a whole before its kind is known, and its parts are then decoded as parts of
a known value. Only taking it up depends on the levels that a text may nest, so the induction is on
the type alone.
-/

namespace SymbolDocs

namespace Interchange

open Json

/-! ### Written values -/

/-- A record is written where its fields are. -/
theorem written_record {fields : List (String × Json)} (h : ∀ field ∈ fields, Written field.2) :
    Written (record fields) :=
  .object (List.forall_mem_map.mpr h)

/-- A list of texts is written as JSON that can be read back. -/
theorem written_ofTexts (texts : List Text) : Written (ofTexts texts) :=
  .array (List.forall_mem_map.mpr fun text _ => .string text)

/-- So is a value that may be missing. -/
theorem written_ofOption {json : Option Json} (h : ∀ value ∈ json, Written value) :
    Written (ofOption json) := by
  cases json with
  | none => exact .null
  | some value => exact h value rfl

/-- So is the rank of an array. -/
theorem written_rank (rank : UInt32) : Written (.number (.integer rank.toNat)) :=
  .number (Nat.lt_trans rank.toNat_lt (by decide))

/-- So is a type whose shape is written so. -/
theorem written_ofHeader (header : TypeHeader) {shape : List (String × Json)}
    (h : ∀ field ∈ shape, Written field.2) : Written (ofHeader header shape) := by
  apply written_record
  simp only [List.forall_mem_cons]
  exact ⟨.string _, .string _, .boolean _, written_record h, List.forall_mem_nil _⟩

/-- The types in a list are written one by one. -/
theorem ofTypes_eq_map (types : List TypeTerm) : ofTypes types = types.map ofType := by
  induction types with
  | nil => rfl
  | cons type types ih => rw [ofTypes, ih, List.map_cons]

/-- A type that may be missing is written as a type where it is there. -/
theorem ofTypeOption_eq_map (type : Option TypeTerm) : ofTypeOption type = type.map ofType := by
  cases type <;> rfl

/-- **The value of a type is a written one.** -/
theorem written_ofType (type : TypeTerm) : Written (ofType type) := by
  induction type using TypeTerm.rec_on_parts with
  | named header declaring parameters arguments hdeclaring harguments =>
    apply written_ofHeader
    rw [ofTypeOption_eq_map, ofTypes_eq_map]
    simp only [List.forall_mem_cons]
    refine ⟨.string _, written_ofOption ?_, written_ofTexts _, .array ?_, List.forall_mem_nil _⟩
    · simpa using hdeclaring
    · simpa using harguments
  | genericParameter header =>
    apply written_ofHeader
    simp only [List.forall_mem_cons]
    exact ⟨.string _, List.forall_mem_nil _⟩
  | array header element rank ih =>
    apply written_ofHeader
    simp only [List.forall_mem_cons]
    exact ⟨.string _, ih, written_rank rank, List.forall_mem_nil _⟩
  | pointer header element ih | byRef header element ih =>
    apply written_ofHeader
    simp only [List.forall_mem_cons]
    exact ⟨.string _, ih, List.forall_mem_nil _⟩

/-- A type that may be missing is written as JSON that can be read back. -/
theorem written_ofTypeOption (type : Option TypeTerm) : Written (ofOption (ofTypeOption type)) := by
  rw [ofTypeOption_eq_map]
  exact written_ofOption (by simp [written_ofType])

/-- A list of types is written as JSON that can be read back. -/
theorem written_ofTypes (types : List TypeTerm) : Written (.array (ofTypes types)) := by
  rw [ofTypes_eq_map]
  exact .array (by simp [written_ofType])

/-! ### Headers and shapes -/

/-- The fields of a record, as an object holds them. -/
theorem record_cons (name : String) (value : Json) (fields : List (String × Json)) :
    record ((name, value) :: fields) =
      .object ((name.toList, value) :: fields.map fun field => (field.1.toList, field.2)) :=
  rfl

/-- Fields that are not called as the tag is do not hold it. -/
theorem ne_tagName_of_ne_kind {fields : List (String × Json)}
    (h : ∀ field ∈ fields, field.1 ≠ "kind") :
    ∀ field ∈ fields.map fun field => (field.1.toList, field.2), field.1 ≠ tagName :=
  List.forall_mem_map.mpr fun field hfield htag => h field hfield (String.toList_inj.mp htag)

/-- **A type is decoded from its header and its shape.** -/
theorem decodes_ofHeader (header : TypeHeader) {fields : List (String × Json)} {make : Shape}
    (h : Decodes shape (record fields) make) :
    Decodes type (ofHeader header fields) (make header) := by
  intro origin hadmits
  obtain ⟨inner, hinner, hfields⟩ := hadmits.object
  have hshape : shape inner (record fields) = .ok make :=
    h inner (hfields ("shape".toList, record fields) (by simp))
  have hdraft : typeFields inner {} [("name".toList, .string header.name),
      ("namespace".toList, .string header.space),
      ("is_interface".toList, .boolean header.isInterface), ("shape".toList, record fields)] =
        .ok ⟨some header.name, some header.space, some header.isInterface, some make⟩ := by
    simp [typeFields, TypeDraft.put, fill, hshape, bind, Except.bind, Except.map]
  rw [ofHeader, record_cons, type]
  exact bind_eq_ok.mpr ⟨inner, hinner, bind_eq_ok.mpr ⟨_, hdraft, rfl⟩⟩

/-- **A shape that begins with its tag is decoded by its kind**, where its other fields are. -/
theorem decodes_shape (name : String) {kind : ShapeKind} {fields : List (String × Json)}
    (draft : ShapeDraft) {make : Shape} (hkind : variant shapeKinds name.toList = .ok kind)
    (hplain : ∀ field ∈ fields, field.1 ≠ "kind") (hwritten : ∀ field ∈ fields, Written field.2)
    (hfields : shapeFields kind {} (fields.map fun field => (field.1.toList, field.2)) = .ok draft)
    (hmake : draft.finish kind none = .ok make) :
    Decodes shape (record (("kind", .string name.toList) :: fields)) make := by
  intro origin hadmits
  have htag := objectTag_cons hkind (ne_tagName_of_ne_kind hplain)
    (List.forall_mem_map.mpr hwritten) hadmits
  have hdraft : shapeFields kind {} (("kind".toList, .string name.toList) ::
      fields.map fun field => (field.1.toList, field.2)) = .ok draft := by
    rw [shapeFields, ← hfields]
    simp [ShapeDraft.put, bind, Except.bind]
  rw [record_cons, shape]
  exact bind_eq_ok.mpr ⟨kind, htag, bind_eq_ok.mpr ⟨draft, hdraft, hmake⟩⟩

/-! ### Types -/

/-- The value of a type is not the null value. -/
theorem ofType_ne_null (type : TypeTerm) : ofType type ≠ .null := by
  cases type <;> exact nofun

/-- A value that may be null is decoded where the value is, if there is one. -/
theorem decodes_optional {α : Type} {decode : Decoder α} {encode : α → Json} {value : Option α}
    (h : ∀ a ∈ value, Decodes decode (encode a) a) (hnull : ∀ a ∈ value, encode a ≠ .null) :
    Decodes (optional decode) (ofOption (value.map encode)) value := by
  intro origin hadmits
  cases value with
  | none => rfl
  | some a =>
    rw [Option.map_some, ofOption] at hadmits ⊢
    rw [optional_of_ne_null decode origin (hnull a rfl), h a rfl origin hadmits]
    rfl

/-- A list of decoded types is decoded. -/
theorem typeList_ofTypes {types : List TypeTerm}
    (h : ∀ t ∈ types, Decodes type (ofType t) t) :
    typeList (.array (ofTypes types)) = .ok types := by
  rw [typeList]
  induction types with
  | nil => rfl
  | cons t types ih =>
    obtain ⟨ht, hrest⟩ := List.forall_mem_cons.mp h
    rw [ofTypes, typeListItems, ht .content trivial, ih hrest]
    rfl

/-- The shape of a named type is decoded where its enclosing type and its arguments are. -/
theorem decodes_named {declaring : Option TypeTerm} {arguments : List TypeTerm}
    (parameters : List Text) (hdeclaring : ∀ t ∈ declaring, Decodes type (ofType t) t)
    (harguments : ∀ t ∈ arguments, Decodes type (ofType t) t) :
    Decodes shape (record [("kind", .string "named".toList),
      ("declaring", ofOption (ofTypeOption declaring)), ("generic_parameters", ofTexts parameters),
      ("generic_arguments", .array (ofTypes arguments))])
      fun header => .named header declaring parameters arguments := by
  have houter : optional (fun _ _ => type .content (ofOption (ofTypeOption declaring))) .content
      (ofOption (ofTypeOption declaring)) = .ok declaring := by
    cases declaring with
    | none => rfl
    | some outer =>
      rw [ofTypeOption, ofOption, optional_of_ne_null _ _ (ofType_ne_null outer),
        hdeclaring outer rfl .content trivial]
      rfl
  have hparameters : list text .content (ofTexts parameters) = .ok parameters :=
    decodes_list (fun text _ => decodes_text text) .content trivial
  have hlist := typeList_ofTypes harguments
  refine decodes_shape "named"
    { declaring := some declaring, parameters := some parameters, arguments := some arguments }
    rfl ?_ ?_ ?_ rfl
  · simp
  · simp only [List.forall_mem_cons]
    exact ⟨written_ofTypeOption declaring, written_ofTexts parameters, written_ofTypes arguments,
      List.forall_mem_nil _⟩
  · simp [shapeFields, ShapeDraft.put, fill, houter, hparameters, hlist, bind, Except.bind,
      Except.map]

/-- The shape of an array type is decoded where its element is. -/
theorem decodes_array {element : TypeTerm} (rank : UInt32)
    (h : Decodes type (ofType element) element) :
    Decodes shape (record [("kind", .string "array".toList), ("element", ofType element),
      ("rank", .number (.integer rank.toNat))]) fun header => .array header element rank := by
  have helement := h .content trivial
  -- said of any value that is decoded to the rank, which keeps the number itself out of the steps
  have hfields : ∀ json, word32 .content json = .ok rank →
      shapeFields .array {} [("element".toList, ofType element), ("rank".toList, json)] =
        .ok { element := some element, rank := some rank } := by
    intro json hrank
    simp [shapeFields, ShapeDraft.put, fill, helement, hrank, bind, Except.bind, Except.map]
  refine decodes_shape "array" { element := some element, rank := some rank } rfl ?_ ?_
    (hfields _ (decodes_word32 rank .content trivial)) rfl
  · simp
  · simp only [List.forall_mem_cons]
    exact ⟨written_ofType element, written_rank rank, List.forall_mem_nil _⟩

/-- The shape of a pointer or of a by-reference type is decoded where its element is. -/
theorem decodes_element {element : TypeTerm} (name : String) (kind : ShapeKind) {make : Shape}
    (hname : (name, kind) ∈ [("pointer", ShapeKind.pointer), ("by_ref", ShapeKind.byRef)])
    (hmake : ShapeDraft.finish kind { element := some element } none = .ok make)
    (h : Decodes type (ofType element) element) :
    Decodes shape (record [("kind", .string name.toList), ("element", ofType element)]) make := by
  have helement := h .content trivial
  have hkind : variant shapeKinds name.toList = .ok kind ∧ (kind = .pointer ∨ kind = .byRef) := by
    simp only [List.mem_cons, List.not_mem_nil, or_false, Prod.mk.injEq] at hname
    obtain ⟨rfl, rfl⟩ | ⟨rfl, rfl⟩ := hname
    · exact ⟨rfl, .inl rfl⟩
    · exact ⟨rfl, .inr rfl⟩
  refine decodes_shape name { element := some element } hkind.1 ?_ ?_ ?_ hmake
  · simp
  · simpa using written_ofType element
  · rcases hkind.2 with rfl | rfl <;>
      simp [shapeFields, ShapeDraft.put, fill, helement, bind, Except.bind, Except.map]

/-- **Every type is decoded from its value.** -/
theorem decodes_type (t : TypeTerm) : Decodes type (ofType t) t := by
  induction t using TypeTerm.rec_on_parts with
  | named header declaring parameters arguments hdeclaring harguments =>
    rw [ofType]
    exact decodes_ofHeader header (decodes_named parameters hdeclaring harguments)
  | genericParameter header =>
    rw [ofType]
    exact decodes_ofHeader header (decodes_shape "generic_parameter" {} rfl (List.forall_mem_nil _)
      (List.forall_mem_nil _) rfl rfl)
  | array header element rank ih =>
    rw [ofType]
    exact decodes_ofHeader header (decodes_array rank ih)
  | pointer header element ih =>
    rw [ofType]
    exact decodes_ofHeader header (decodes_element "pointer" .pointer (by simp) rfl ih)
  | byRef header element ih =>
    rw [ofType]
    exact decodes_ofHeader header (decodes_element "by_ref" .byRef (by simp) rfl ih)

end Interchange

end SymbolDocs
