import SymbolDocs.Proofs.Markup.Writing
import SymbolDocs.Proofs.Store.Log
set_option autoImplicit false

/-!
# Loading written members

Members that have been written as documentation are found again once the text has been loaded: each
symbol has the body of the last member that is named by its identifier.

## Main results

* `Store.lookup_takeIn` — a source taken in gives each name its last body in the source.
* `Store.loadText_writeMembers` — written members are loaded, and are those of the source.
* `Store.documentation_writeMembers` — written members document the symbols that they name.
-/

namespace SymbolDocs

/-! ### Last bodies -/

namespace Log

/-- The last body of a name is that of a member behind which no other has the name. -/
theorem lastBody?_append_cons {name : Text} {member : Markup.MemberBlock}
    {earlier later : List Markup.MemberBlock} (hname : member.name = name)
    (hlater : ∀ other ∈ later, other.name ≠ name) :
    lastBody? name (earlier ++ member :: later) = some member.body := by
  have hnone : lastBody? name later = none := by
    rw [← Option.not_isSome_iff_eq_none, isSome_lastBody?, List.mem_map]
    rintro ⟨other, hother, heq⟩
    exact hlater other hother heq
  induction earlier with
  | nil => rw [List.nil_append, lastBody?, hnone, if_pos hname, Option.none_or]
  | cons first earlier ih => rw [List.cons_append, lastBody?, ih, Option.some_or]

/-- A name that no member has has no last body. -/
theorem lastBody?_eq_none {name : Text} {members : List Markup.MemberBlock}
    (h : ∀ member ∈ members, member.name ≠ name) : lastBody? name members = none := by
  rw [← Option.not_isSome_iff_eq_none, isSome_lastBody?, List.mem_map]
  rintro ⟨member, hmember, heq⟩
  exact h member hmember heq

end Log

namespace Store

/-- A source taken in gives each name its last body in the source, and leaves the others. -/
theorem lookup_takeIn (store : Store) (key : Text) (members : List Markup.MemberBlock)
    (name : Text) :
    (store.takeIn key members).lookup name =
      (Log.lastBody? name members).or (store.lookup name) :=
  Log.lookup_insertAll store members name

/-- **Written members are loaded** under a new label, and are those of the source. -/
theorem loadText_writeMembers {store : Store} {label : Text} {members : List Markup.MemberBlock}
    (helement : Markup.IsElementName store.settings.memberElement)
    (hlabel : label ∉ store.sources)
    (hbodies : ∀ member ∈ members,
      Markup.scan store.settings.memberElement member.body = .ok []) :
    store.loadText label (Markup.writeMembers store.settings.memberElement members) =
      (.ok (), store.takeIn label members) := by
  have hnew : ¬ store.sources.contains label = true := by simpa using hlabel
  have hscan := (Markup.document_writeMembers helement hbodies).scan_eq
  rw [loadText, if_neg hnew, ingest, hscan]

/-- **Written members document the symbols that they name.** Let a store scan for elements of a name
that a tag can hold as it is. Members of any names, the bodies of which hold no members, can be
loaded under a new label as they are written. Afterwards a symbol has the body of the last member
named by its identifier, character for character, and where there is none, the documentation that it
had before.

**Proof sketch.** What is written is a document with these members, since the encoded name is
decoded to the name and the body is not touched. A member taken in later replaces an earlier one of
its name. -/
theorem documentation_writeMembers {store : Store} {label : Text}
    {members : List Markup.MemberBlock}
    (helement : Markup.IsElementName store.settings.memberElement)
    (hlabel : label ∉ store.sources)
    (hbodies : ∀ member ∈ members,
      Markup.scan store.settings.memberElement member.body = .ok []) :
    ∃ loaded, store.loadText label
        (Markup.writeMembers store.settings.memberElement members) = (.ok (), loaded) ∧
      ∀ symbol identifier, Identifier.ofSymbol symbol = .ok identifier →
        (∀ (i : Nat) (hi : i < members.length), members[i].name = identifier →
          (∀ (j : Nat) (hj : j < members.length), i < j → members[j].name ≠ identifier) →
            loaded.documentation symbol = .ok (some members[i].body)) ∧
        ((∀ member ∈ members, member.name ≠ identifier) →
          loaded.documentation symbol = store.documentation symbol) := by
  refine ⟨_, loadText_writeMembers helement hlabel hbodies,
    fun symbol identifier hidentifier => ⟨fun i hi hname hlast => ?_, fun hnone => ?_⟩⟩
  · have hsplit : members = members.take i ++ members[i] :: members.drop (i + 1) := by simp
    have hlater : ∀ other ∈ members.drop (i + 1), other.name ≠ identifier := by
      intro other hother
      obtain ⟨k, hk, rfl⟩ := List.getElem_of_mem hother
      rw [List.getElem_drop]
      rw [List.length_drop] at hk
      exact hlast (i + 1 + k) (by omega) (by omega)
    have hbody : Log.lastBody? identifier members = some members[i].body := by
      have hat : Log.lastBody? identifier (members.take i ++ members[i] :: members.drop (i + 1)) =
          some members[i].body := Log.lastBody?_append_cons hname hlater
      rwa [← hsplit] at hat
    rw [documentation, hidentifier]
    show Except.ok ((store.takeIn label members).lookup identifier) = _
    rw [lookup_takeIn, hbody, Option.some_or]
  · rw [documentation, documentation, hidentifier]
    show Except.ok ((store.takeIn label members).lookup identifier) = Except.ok _
    rw [lookup_takeIn, Log.lastBody?_eq_none hnone, Option.none_or]

/-- Two members named by the identifier of a type whose name holds angle brackets, an ampersand and
a line feed, the second with an element and a comment in its body. -/
def bracketMembers : List Markup.MemberBlock :=
  [⟨"T:Sample.<A>&\n".toList, "first".toList⟩,
    ⟨"T:Sample.<A>&\n".toList, "<b>last</b><!-- <member> -->".toList⟩]

set_option maxRecDepth 4000 in
/-- Loaded into a new store, the members document the type by the body of the second. -/
theorem documentation_writeMembers_bracketMembers :
    ∃ loaded, (empty {}).loadText "docs".toList
        (Markup.writeMembers "member".toList bracketMembers) = (.ok (), loaded) ∧
      loaded.documentation (.type (.plain "Sample".toList "<A>&\n".toList)) =
        .ok (some "<b>last</b><!-- <member> -->".toList) := by
  have helement : Markup.IsElementName (empty {}).settings.memberElement := by decide
  have hbodies : ∀ member ∈ bracketMembers,
      Markup.scan (empty {}).settings.memberElement member.body = .ok [] := by
    simp only [bracketMembers, List.forall_mem_cons]
    exact ⟨rfl, rfl, by simp⟩
  obtain ⟨loaded, hload, hdocumented⟩ :=
    @documentation_writeMembers (empty {}) "docs".toList bracketMembers helement
      List.not_mem_nil hbodies
  refine ⟨loaded, hload, ?_⟩
  have hsymbol := hdocumented (.type (.plain "Sample".toList "<A>&\n".toList))
    "T:Sample.<A>&\n".toList rfl
  refine hsymbol.1 1 (by decide) rfl fun j hj hlater => ?_
  have htwo : bracketMembers.length = 2 := rfl
  omega

end Store

end SymbolDocs
