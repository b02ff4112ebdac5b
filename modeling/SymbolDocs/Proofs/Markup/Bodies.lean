import SymbolDocs.Proofs.Markup.Acceptance
set_option autoImplicit false

/-!
# Bodies of members

The body of a member is a document of its own. Scanned alone, it has exactly those members that
stand right before the member whose body it is.

## Main definitions

* `Markup.StandsIn` — where the element of a member stands in a text.
* `Markup.SelfContained` — members of a text that follow those of their bodies.

## Main results

* `Markup.SelfContained.append` — the members of one text and then those of another.
* `Markup.Document.selfContained` — the members of a document follow those of their bodies.
* `Markup.scan_bodies` — the bodies of the members found are scanned alone.

## Design

That a body is scanned alone as it is inside its element is no fact on the scanner: the grammar
tells a construct by its own text, and the body of an element is a document.
-/

namespace SymbolDocs

namespace Markup

variable {memberElement : Text}

/-! ### Members in a text -/

/-- The element of a member stands in a text: an empty element, without a body, or one whose body is
the text between its start tag and its end tag. -/
inductive StandsIn (memberElement text : Text) (member : MemberBlock) : Prop where
  /-- An empty element. -/
  | empty {before content after : Text} {tag : Tag} (start : StartTag content tag)
      (is_empty : tag.isEmpty = true) (documents : Documents memberElement tag (some member.name))
      (no_body : member.body = []) (text_eq : text = before ++ '<' :: content ++ '>' :: after)
  /-- An element with a body. -/
  | element {before content ending after : Text} {tag : Tag} (start : StartTag content tag)
      (not_empty : tag.isEmpty = false) (documents : Documents memberElement tag (some member.name))
      (close : EndTag ending tag.name)
      (text_eq : text =
        before ++ '<' :: content ++ '>' :: (member.body ++ '<' :: '/' :: ending ++ '>' :: after))

/-- The body of a member is a piece of the text. -/
theorem StandsIn.body_infix {text : Text} {member : MemberBlock}
    (h : StandsIn memberElement text member) : member.body <:+: text := by
  cases h with
  | empty _ _ _ no_body _ => rw [no_body]; exact List.nil_infix
  | @element before content ending after _ _ _ _ _ text_eq =>
    exact ⟨before ++ '<' :: content ++ ['>'], '<' :: '/' :: ending ++ '>' :: after,
      by rw [text_eq]; simp⟩

/-- A member that stands in a piece of a text stands in the text. -/
theorem StandsIn.of_infix {piece text : Text} {member : MemberBlock}
    (h : StandsIn memberElement piece member) (hpiece : piece <:+: text) :
    StandsIn memberElement text member := by
  obtain ⟨front, back, rfl⟩ := hpiece
  cases h with
  | @empty before content after _ start is_empty documents no_body text_eq =>
    have htext : front ++ piece ++ back =
        front ++ before ++ '<' :: content ++ '>' :: (after ++ back) := by
      rw [text_eq]
      simp
    exact .empty start is_empty documents no_body htext
  | @element before content ending after _ start not_empty documents close text_eq =>
    have htext : front ++ piece ++ back = front ++ before ++ '<' :: content ++
        '>' :: (member.body ++ '<' :: '/' :: ending ++ '>' :: (after ++ back)) := by
      rw [text_eq]
      simp
    exact .element start not_empty documents close htext

/-! ### Members and those of their bodies -/

/-- Each of some members stands in a text, and right before it are the members of its body. -/
def SelfContained (memberElement text : Text) (members : List MemberBlock) : Prop :=
  ∀ earlier member later, members = earlier ++ member :: later →
    StandsIn memberElement text member ∧
      ∃ inner, inner <:+ earlier ∧ Document memberElement member.body inner

/-- No members. -/
theorem SelfContained.nil (text : Text) : SelfContained memberElement text [] := by
  intro earlier member later hsplit
  simp at hsplit

/-- The members of a piece of a text are members of the text. -/
theorem SelfContained.of_infix {piece text : Text} {members : List MemberBlock}
    (h : SelfContained memberElement piece members) (hpiece : piece <:+: text) :
    SelfContained memberElement text members := by
  intro earlier member later hsplit
  obtain ⟨hstands, hbody⟩ := h earlier member later hsplit
  exact ⟨hstands.of_infix hpiece, hbody⟩

/-- **The members of one text and then those of another**: what stands right before a member still
does. -/
theorem SelfContained.append {text : Text} {members others : List MemberBlock}
    (h₁ : SelfContained memberElement text members) (h₂ : SelfContained memberElement text others) :
    SelfContained memberElement text (members ++ others) := by
  intro earlier member later hsplit
  rcases List.append_eq_append_iff.mp hsplit with ⟨front, rfl, hothers⟩ | ⟨back, hmembers, hback⟩
  · obtain ⟨hstands, inner, hinner, hbody⟩ := h₂ front member later hothers
    exact ⟨hstands, inner, hinner.trans (List.suffix_append members front), hbody⟩
  · cases back with
    | nil =>
      obtain ⟨hstands, inner, hinner, hbody⟩ := h₂ [] member later hback.symm
      obtain rfl := List.suffix_nil.mp hinner
      exact ⟨hstands, [], List.nil_suffix, hbody⟩
    | cons first back =>
      obtain ⟨rfl, -⟩ := List.cons_eq_cons.mp hback
      exact h₁ earlier member back hmembers

/-- The member that an element documents, behind the members of its body. -/
theorem SelfContained.append_yielded {text body : Text} {member : Option Text}
    {inner : List MemberBlock} (h : SelfContained memberElement text inner)
    (hbody : Document memberElement body inner)
    (hstands : ∀ name ∈ member, StandsIn memberElement text ⟨name, body⟩) :
    SelfContained memberElement text (inner ++ yielded member body) := by
  cases member with
  | none =>
    rw [yielded, Option.toList_none, List.map_nil, List.append_nil]
    exact h
  | some name =>
    intro earlier found later hsplit
    rcases List.eq_nil_or_concat later with rfl | ⟨front, last, rfl⟩
    · obtain ⟨rfl, hfound⟩ := List.append_inj' hsplit rfl
      obtain ⟨rfl, -⟩ := List.cons_eq_cons.mp hfound
      exact ⟨hstands name rfl, inner, List.suffix_rfl, hbody⟩
    · rw [List.concat_eq_append, ← List.cons_append, ← List.append_assoc] at hsplit
      obtain ⟨hinner, -⟩ := List.append_inj' hsplit rfl
      exact h earlier found front hinner

/-- **The members of a document follow those of their bodies.**

**Proof sketch.** By induction on the derivation. The members of an element are those of its body,
and then the one that it documents. -/
theorem Document.selfContained {text : Text} {members : List MemberBlock}
    (h : Document memberElement text members) : SelfContained memberElement text members := by
  induction h with
  | nil => exact .nil []
  | @text run rest _ _ _ ih => exact ih.of_infix (List.suffix_append run rest).isInfix
  | @skipped source rest _ _ _ ih => exact ih.of_infix (List.suffix_append source rest).isInfix
  | @empty content rest tag member members start is_empty documents _ ih =>
    refine SelfContained.append ?_ (ih.of_infix ⟨'<' :: content ++ ['>'], [], by simp⟩)
    refine (SelfContained.nil _).append_yielded .nil fun name hname => ?_
    obtain rfl := Option.mem_def.mp hname
    have htext : '<' :: content ++ '>' :: rest = [] ++ '<' :: content ++ '>' :: rest := rfl
    exact .empty start is_empty documents rfl htext
  | @element content body ending rest tag member inner members start not_empty documents inside
      close _ ihinside ih =>
    have hbody : body <:+: '<' :: content ++ '>' :: (body ++ '<' :: '/' :: ending ++ '>' :: rest) :=
      ⟨'<' :: content ++ ['>'], '<' :: '/' :: ending ++ '>' :: rest, by simp⟩
    have hrest : rest <:+: '<' :: content ++ '>' :: (body ++ '<' :: '/' :: ending ++ '>' :: rest) :=
      ⟨'<' :: content ++ '>' :: (body ++ '<' :: '/' :: ending ++ ['>']), [], by simp⟩
    refine SelfContained.append ?_ (ih.of_infix hrest)
    refine (ihinside.of_infix hbody).append_yielded inside fun name hname => ?_
    obtain rfl := Option.mem_def.mp hname
    have htext : '<' :: content ++ '>' :: (body ++ '<' :: '/' :: ending ++ '>' :: rest) =
        [] ++ '<' :: content ++ '>' :: (body ++ '<' :: '/' :: ending ++ '>' :: rest) := rfl
    exact .element start not_empty documents close htext

/-! ### Bodies are scanned alone -/

/-- **The bodies of the members found are scanned alone.** Each member found in a text stands in it,
as an empty element with an empty body, or with a body that is the piece of the text between its
tags. This body is scanned alone, into the members found right before the one whose body it is. -/
theorem scan_bodies {text : Text} {members : List MemberBlock}
    (h : scan memberElement text = .ok members) (i : Nat) (hi : i < members.length) :
    StandsIn memberElement text members[i] ∧ members[i].body <:+: text ∧
      ∃ n ≤ i, scan memberElement members[i].body = .ok ((members.take i).drop (i - n)) := by
  have hsplit : members = members.take i ++ members[i] :: members.drop (i + 1) := by
    rw [← List.drop_eq_getElem_cons hi, List.take_append_drop]
  obtain ⟨hstands, inner, hinner, hbody⟩ :=
    (document_of_scan h).selfContained (members.take i) members[i] (members.drop (i + 1)) hsplit
  have htake : (members.take i).length = i := List.length_take_of_le (Nat.le_of_lt hi)
  have hlength : inner.length ≤ i := by
    rw [← htake]
    exact hinner.length_le
  have hblock : inner = (members.take i).drop (i - inner.length) := by
    have hdrop := List.suffix_iff_eq_drop.mp hinner
    rwa [htake] at hdrop
  refine ⟨hstands, hstands.body_infix, inner.length, hlength, ?_⟩
  rw [hbody.scan_eq, ← hblock]

/-- A member, and another one around a third, which holds a tag in a section of character data. -/
def nestedMembers : Text :=
  "<m name='A'/><m name='B'><m name='C'><![CDATA[<m>]]></m></m>".toList

set_option maxRecDepth 4000 in
/-- The body of the last member found is scanned into the one found right before it. -/
theorem scan_bodies_nestedMembers :
    scan ['m'] nestedMembers =
        .ok [⟨['A'], []⟩, ⟨['C'], "<![CDATA[<m>]]>".toList⟩,
          ⟨['B'], "<m name='C'><![CDATA[<m>]]></m>".toList⟩] ∧
      ∃ n ≤ 2, scan ['m'] "<m name='C'><![CDATA[<m>]]></m>".toList =
        .ok (List.drop (2 - n) [⟨['A'], []⟩, ⟨['C'], "<![CDATA[<m>]]>".toList⟩]) := by
  have hscan : scan ['m'] nestedMembers =
      .ok [⟨['A'], []⟩, ⟨['C'], "<![CDATA[<m>]]>".toList⟩,
        ⟨['B'], "<m name='C'><![CDATA[<m>]]></m>".toList⟩] := rfl
  exact ⟨hscan, (scan_bodies hscan 2 (by decide)).2.2⟩

end Markup

end SymbolDocs
