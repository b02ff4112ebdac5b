import SymbolDocs.Identifier.Basic
import SymbolDocs.Proofs.Outcome
import SymbolDocs.Proofs.TypeTerm.Flatten
set_option autoImplicit false

/-!
# Qualifiers of members

The identifier of a member begins with the name of its declaring type. Methods and constructors take
the written name of the type, properties, fields and events its flattened full name, and the type
itself is identified by the written name as well. All of them agree.

## Main definitions

* `TypeTerm.IsNestedName` — named types that are named alike in both ways.

## Main results

* `TypeTerm.IsNestedName.write_definition_eq` — the written name is the flattened full name.
* `Identifier.qualifier_prefix_ofMethod`, `Identifier.qualifier_prefix_ofConstructor` — what the
  identifier of a method or a constructor begins with.
* `Identifier.ofMember_qualifier` — the identifiers of a type and of its members share a qualifier.

## Design

Only the names along the nesting and the namespace of the outermost type are part of the qualifier.
What the generic arguments hold, brackets and nesting steps of their own among it, is removed with
them, as long as it stays on one line.
-/

namespace SymbolDocs

open Naming

namespace TypeTerm

/-- A named type within named types, without a bracket or a nesting step in the names and in the
namespace of the outermost type, and without a line feed in the full name of an argument. -/
structure IsNestedName (type : TypeTerm) : Prop where
  /-- The type and all that enclose it are named types. -/
  named : ∀ t ∈ type.nesting, t.isNamed = true
  /-- The names hold neither a bracket nor a nesting step. -/
  name : ∀ t ∈ type.nesting, '[' ∉ t.name ∧ '+' ∉ t.name
  /-- The namespace of the outermost type holds neither a bracket nor a nesting step. -/
  space : '[' ∉ type.outermost.space ∧ '+' ∉ type.outermost.space
  /-- The full names of the arguments along the nesting hold no line feed. -/
  argument : ∀ t ∈ type.nesting.flatMap arguments, '\n' ∉ t.fullName

/-- **The written name of a nested type is its flattened full name**, in any scope. -/
theorem IsNestedName.write_definition_eq {type : TypeTerm} (h : type.IsNestedName)
    (scope : GenericScope) :
    write .definition scope type = .ok (FullName.flatten type.fullName) := by
  have hself : type.isNamed = true := h.named type (mem_nesting_self type)
  rw [write_definition scope h.named, flatten_fullName hself h.name h.space h.argument]

end TypeTerm

namespace Identifier

/-- The identifier of a method begins with the written name of its declaring type and its own. -/
theorem qualifier_prefix_ofMethod {method : Method} {qualifier identifier : Text}
    (hwrite : ∀ scope, write .definition scope method.declaring = .ok qualifier)
    (h : ofMethod method = .ok identifier) :
    SymbolKind.method.opening ++ qualifier ++ '.' :: method.name <+: identifier := by
  rw [ofMethod, hwrite] at h
  obtain ⟨declaring, hdeclaring, h⟩ := bind_eq_ok.mp h
  obtain rfl : qualifier = declaring := Except.ok.inj hdeclaring
  obtain ⟨parameters, -, h⟩ := bind_eq_ok.mp h
  obtain ⟨result, -, h⟩ := bind_eq_ok.mp h
  obtain rfl := Except.ok.inj h
  exact ⟨genericArity method.generics ++ parameters ++ result, by simp⟩

/-- The identifier of a constructor begins with the written name of its declaring type and its own
name. -/
theorem qualifier_prefix_ofConstructor {constructor : Constructor} {qualifier identifier : Text}
    (hwrite : ∀ scope, write .definition scope constructor.declaring = .ok qualifier)
    (h : ofConstructor constructor = .ok identifier) :
    SymbolKind.method.opening ++ qualifier ++ '.' :: Constructor.name <+: identifier := by
  rw [ofConstructor, hwrite] at h
  obtain ⟨declaring, hdeclaring, h⟩ := bind_eq_ok.mp h
  obtain rfl : qualifier = declaring := Except.ok.inj hdeclaring
  obtain ⟨parameters, -, h⟩ := bind_eq_ok.mp h
  obtain rfl := Except.ok.inj h
  exact ⟨parameters, by simp⟩

/-- **The two ways of naming a declaring type agree.** The written name of a nested type is its
flattened full name in any scope. Hence the type and all its members share a qualifier: the
identifier of the type is the qualifier behind its opening, that of a property, field or event is
the opening of the kind, the qualifier, a dot and the name, and that of a method or a constructor
begins with these.

**Proof sketch.** Both names are the path of the definition, and the identifiers of methods and
constructors write the declaring type before anything else. -/
theorem ofMember_qualifier {type : TypeTerm} (h : type.IsNestedName) :
    (∀ scope, write .definition scope type = .ok (FullName.flatten type.fullName)) ∧
      ∃ qualifier, ofType type = .ok ("T:".toList ++ qualifier) ∧
        (∀ member : PlainMember, member.declaring = type →
          ofMember (.property member) = .ok ("P:".toList ++ qualifier ++ '.' :: member.name) ∧
          ofMember (.field member) = .ok ("F:".toList ++ qualifier ++ '.' :: member.name) ∧
          ofMember (.event member) = .ok ("E:".toList ++ qualifier ++ '.' :: member.name)) ∧
        (∀ method : Method, method.declaring = type → ∀ identifier,
          ofMember (.method method) = .ok identifier →
            "M:".toList ++ qualifier ++ '.' :: method.name <+: identifier) ∧
        ∀ constructor : Constructor, constructor.declaring = type → ∀ identifier,
          ofMember (.constructor constructor) = .ok identifier →
            "M:".toList ++ qualifier ++ '.' :: Constructor.name <+: identifier := by
  have hwrite := h.write_definition_eq
  refine ⟨hwrite, FullName.flatten type.fullName, ?_, ?_, ?_, ?_⟩
  · rw [ofType, hwrite]
    rfl
  · rintro member rfl
    exact ⟨rfl, rfl, rfl⟩
  · rintro method rfl identifier hidentifier
    exact qualifier_prefix_ofMethod hwrite hidentifier
  · rintro constructor rfl identifier hidentifier
    exact qualifier_prefix_ofConstructor hwrite hidentifier

/-- The type `Inner<String>` of `Sample.Outer<Pair<Int32>[]>`, where it carries a namespace of its
own and the pair one with a nesting step. -/
def nestedPairs : TypeTerm :=
  .named { name := "Inner`1".toList, space := "Elsewhere".toList }
    (some (.named { name := "Outer`1".toList, space := "Sample".toList } none ["T".toList]
      [.arrayOf 1 (.named { name := "Pair`1".toList, space := "Tools+Lists".toList } none []
        [.plain "System".toList "Int32".toList])]))
    [] [.plain "System".toList "String".toList]

/-- The type is named alike in both ways. -/
theorem isNestedName_nestedPairs : nestedPairs.IsNestedName := by
  constructor <;> decide

/-- A property of the type goes by the written name of the type. -/
theorem ofMember_qualifier_nestedPairs :
    ofType nestedPairs = .ok "T:Sample.Outer`1.Inner`1".toList ∧
      nestedPairs.fullName = ("Sample.Outer`1+Inner`1" ++
        "[[Tools+Lists.Pair`1[[System.Int32]][]],[System.String]]").toList ∧
      ofMember (.property ⟨"Count".toList, nestedPairs⟩) =
        .ok "P:Sample.Outer`1.Inner`1.Count".toList := by
  obtain ⟨-, qualifier, htype, hplain, -, -⟩ := ofMember_qualifier isNestedName_nestedPairs
  have hwritten : ofType nestedPairs = .ok ("T:".toList ++ "Sample.Outer`1.Inner`1".toList) := rfl
  obtain rfl : qualifier = "Sample.Outer`1.Inner`1".toList :=
    List.append_cancel_left (Except.ok.inj (htype.symm.trans hwritten))
  exact ⟨htype, rfl, (hplain ⟨"Count".toList, nestedPairs⟩ rfl).1⟩

end Identifier

end SymbolDocs
