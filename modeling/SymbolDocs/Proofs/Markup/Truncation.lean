import SymbolDocs.Proofs.Markup.Faults
set_option autoImplicit false

/-!
# Truncated documents

An element that is cut short is not scanned, wherever the cut falls: a construct lacks its end, or
the element is not closed. No other construct can be taken for the one that was cut.

## Main definitions

* `Markup.IsElement` — a text that is one element.

## Main results

* `Markup.scan_prefix` — why the beginning of a scanned text may not be scanned.
* `Markup.Document.eq_of_append_close` — what stands before the end tag of an element is told from
  the text.
* `Markup.IsElement.eq_nil_of_append` — an element is not two documents one after the other.
* `Markup.scan_truncated` — an element cut short is not scanned.

## Design

If the beginning of an element were a document, the rest would be one as well, since documents can
be taken away from the front. So the theorem is a fact on the grammar: an element is not put
together from two documents.
-/

namespace SymbolDocs

namespace Markup

variable {memberElement : Text}

/-! ### Beginnings of documents -/

/-- **The beginning of a scanned text is scanned, unless something in it lacks its end**: a
construct or an element.

**Proof sketch.** Any other construct at fault would be at fault in the whole text as well. -/
theorem scan_prefix {text start : Text} {members : List MemberBlock}
    (h : scan memberElement text = .ok members) (hstart : start <+: text) :
    (∃ found, scan memberElement start = .ok found) ∨
      ∃ line reason, scan memberElement start = .error ⟨line, reason⟩ ∧
        ((∃ kind, reason = .unfinished kind) ∨ ∃ name, reason = .unclosed name) := by
  cases hscan : scan memberElement start with
  | ok found => exact .inl ⟨found, rfl⟩
  | error fault =>
    right
    cases scan_eq_error_iff.mp hscan with
    | @unclosed name _ _ => exact ⟨_, _, rfl, .inr ⟨name, rfl⟩⟩
    | @atConstruct front rest names reason text_eq leaves_open faulty =>
      refine ⟨_, _, rfl, .inl ?_⟩
      obtain ⟨more, rfl⟩ := hstart
      rcases construct_prefix (List.prefix_append rest more) with ⟨kind, hkind⟩ | hwhole
      · rw [hkind] at faulty
        cases faulty with
        | unfinished _ => exact ⟨kind, rfl⟩
      · rw [hwhole] at faulty
        have htext : start ++ more = front ++ '<' :: (rest ++ more) := by rw [text_eq]; simp
        have hfault := (Located.atConstruct htext leaves_open faulty).scan_eq
        exact absurd (hfault.symm.trans h) nofun

/-- What follows a document in a document is a document. -/
theorem Document.of_append {first second : Text} {members all : List MemberBlock}
    (h : Document memberElement (first ++ second) all)
    (hfirst : Document memberElement first members) :
    ∃ others, Document memberElement second others := by
  have hscan := h.scan_eq
  rw [scan_append_eq hfirst.scan_eq] at hscan
  obtain ⟨others, hothers, -⟩ := map_eq_ok.mp hscan
  exact ⟨others, document_of_scan (mapError_eq_ok.mp hothers)⟩

/-- No document begins with a construct that is at fault outside any element. -/
theorem Document.not_faulty {rest : Text} {members : List MemberBlock}
    (h : Document memberElement ('<' :: rest) members) {reason : SyntaxReason} :
    ¬ Faulty memberElement [] (construct rest) reason := fun hfaulty =>
  not_promising_of_faulty (.document .nil) hfaulty (.inl ⟨members, h.scan_eq⟩)

/-! ### End tags -/

/-- **Only the empty document begins a text that begins with an end tag.** -/
theorem Document.eq_nil_of_prefix_close {text ending name rest : Text} {members : List MemberBlock}
    (h : Document memberElement text members) (hclose : EndTag ending name)
    (htext : text <+: '<' :: '/' :: ending ++ '>' :: rest) : text = [] := by
  cases text with
  | nil => rfl
  | cons c cut =>
    obtain ⟨rfl, hcut⟩ := List.cons_prefix_cons.mp htext
    have hfaulty : Faulty memberElement [] (construct ('/' :: ending ++ '>' :: rest))
        (.unexpectedClose name) := by
      rw [hclose.construct_eq rest]
      exact .unexpectedClose rfl
    obtain ⟨reason, hreason⟩ := hfaulty.exists_of_isPrefix hcut
    exact absurd hreason h.not_faulty

/-- A document that begins another one up to an end tag is all of it. -/
theorem Document.eq_of_isPrefix {body longer ending name rest : Text}
    {members others : List MemberBlock} (h : Document memberElement body members)
    (hlonger : Document memberElement longer others) (hclose : EndTag ending name)
    (hbefore : body <+: longer) (htext : longer <+: body ++ ('<' :: '/' :: ending ++ '>' :: rest)) :
    body = longer := by
  obtain ⟨beyond, rfl⟩ := hbefore
  obtain ⟨found, hbeyond⟩ := hlonger.of_append h
  have hnil : beyond = [] :=
    hbeyond.eq_nil_of_prefix_close hclose ((List.prefix_append_right_inj body).mp htext)
  rw [hnil, List.append_nil]

/-- **What stands before the end tag of an element is told from the text**: of two documents before
an end tag neither goes beyond the other. -/
theorem Document.eq_of_append_close {body₁ body₂ ending₁ ending₂ name₁ name₂ rest₁ rest₂ : Text}
    {members others : List MemberBlock} (h₁ : Document memberElement body₁ members)
    (h₂ : Document memberElement body₂ others) (hclose₁ : EndTag ending₁ name₁)
    (hclose₂ : EndTag ending₂ name₂)
    (htext : body₁ ++ ('<' :: '/' :: ending₁ ++ '>' :: rest₁) =
      body₂ ++ ('<' :: '/' :: ending₂ ++ '>' :: rest₂)) : body₁ = body₂ := by
  have hfirst : body₁ <+: body₂ ++ ('<' :: '/' :: ending₂ ++ '>' :: rest₂) := ⟨_, htext⟩
  have hsecond : body₂ <+: body₁ ++ ('<' :: '/' :: ending₁ ++ '>' :: rest₁) := ⟨_, htext.symm⟩
  rcases List.prefix_or_prefix_of_prefix hfirst (List.prefix_append body₂ _) with h | h
  · exact h₁.eq_of_isPrefix h₂ hclose₁ h hsecond
  · exact (h₂.eq_of_isPrefix h₁ hclose₂ h hfirst).symm

/-- Behind an end tag stands what the text tells. -/
theorem EndTag.rest_unique {ending₁ ending₂ name₁ name₂ rest₁ rest₂ : Text}
    (h₁ : EndTag ending₁ name₁) (h₂ : EndTag ending₂ name₂)
    (htext : '/' :: ending₁ ++ '>' :: rest₁ = '/' :: ending₂ ++ '>' :: rest₂) : rest₁ = rest₂ := by
  have htokens := h₁.construct_eq rest₁
  rw [htext, h₂.construct_eq rest₂] at htokens
  have hsource : '<' :: '/' :: ending₂ ++ ['>'] = '<' :: '/' :: ending₁ ++ ['>'] :=
    (Token.close.inj htokens).1
  obtain rfl : ending₂ = ending₁ := by simpa using hsource
  simpa using htext

/-! ### Elements -/

/-- A text that is one element: an empty one, or one around a document. -/
inductive IsElement (memberElement : Text) : Text → Prop where
  /-- An empty element. -/
  | empty {content : Text} {tag : Tag} {member : Option Text} (start : StartTag content tag)
      (is_empty : tag.isEmpty = true) (documents : Documents memberElement tag member) :
      IsElement memberElement ('<' :: content ++ ['>'])
  /-- A start tag, a document, and the end tag that closes the element. -/
  | around {content body ending : Text} {tag : Tag} {member : Option Text}
      {inner : List MemberBlock} (start : StartTag content tag) (not_empty : tag.isEmpty = false)
      (documents : Documents memberElement tag member)
      (inside : Document memberElement body inner) (close : EndTag ending tag.name) :
      IsElement memberElement ('<' :: content ++ '>' :: (body ++ '<' :: '/' :: ending ++ ['>']))

/-- An element is a document. -/
theorem IsElement.exists_document {text : Text} (h : IsElement memberElement text) :
    ∃ members, Document memberElement text members := by
  cases h with
  | empty start is_empty documents => exact ⟨_, .empty start is_empty documents .nil⟩
  | around start not_empty documents inside close =>
    exact ⟨_, .element start not_empty documents inside close .nil⟩

/-- A document that begins a text that begins with a start tag holds the whole tag, if it is not
empty. -/
theorem Document.exists_rest {first content rest : Text} {tag : Tag} {members : List MemberBlock}
    (h : Document memberElement first members) (hne : first ≠ []) (start : StartTag content tag)
    (hbefore : first <+: '<' :: content ++ '>' :: rest) :
    ∃ inner, first = '<' :: content ++ '>' :: inner := by
  obtain ⟨c, cut, rfl⟩ := List.exists_cons_of_ne_nil hne
  obtain ⟨rfl, more, hmore⟩ := List.cons_prefix_cons.mp hbefore
  rcases construct_begins cut with ⟨kind, hkind⟩ | ⟨inner, hbegins⟩
  · have hfaulty : Faulty memberElement [] (construct cut) (.unfinished kind) := by
      rw [hkind]
      exact .unfinished kind
    exact absurd hfaulty h.not_faulty
  · have hwhole : construct (cut ++ more) = construct cut := (hbegins.append more).construct_eq
    have hconstruct : construct cut = .open ('<' :: content ++ ['>']) (.ofContent content) := by
      rw [← hwhole, hmore]
      exact construct_of_tagContent start.is_content start.head rest
    refine ⟨inner, ?_⟩
    rw [hbegins.eq_append, hconstruct]
    simp [Token.source]

/-- Behind the start tag of its first element a document closes this element. -/
theorem Document.closes {content inner : Text} {tag : Tag} {member : Option Text}
    {members : List MemberBlock}
    (h : Document memberElement ('<' :: content ++ '>' :: inner) members)
    (start : StartTag content tag) (not_empty : tag.isEmpty = false)
    (documents : Documents memberElement tag member) : Closes memberElement [tag.name] inner := by
  have hrun := h.run_eq {} []
  rw [List.append_nil, start.run_eq documents] at hrun
  obtain ⟨place, hopened⟩ := Progress.opened_openElement not_empty
    (Progress.pass {} ('<' :: content ++ ['>'])) member
  have hcloses := closes_of_run (lexes_tokens inner) hrun rfl
  rwa [hopened] at hcloses

/-- **An element is not two documents one after the other**, unless one of them is empty.

**Proof sketch.** The first document holds the start tag, and so closes the element. Up to the end
tag it is the body of the element, so that nothing is left for the second document. -/
theorem IsElement.eq_nil_of_append {first second : Text} {members : List MemberBlock}
    (h : IsElement memberElement (first ++ second)) (hfirst : Document memberElement first members)
    (hne : first ≠ []) : second = [] := by
  generalize htext : first ++ second = text at h
  cases h with
  | empty start is_empty documents =>
    obtain ⟨inner, rfl⟩ := hfirst.exists_rest hne start ⟨second, htext⟩
    have hinner : inner ++ second = [] := by simpa using htext
    exact (List.append_eq_nil_iff.mp hinner).2
  | @around content body ending tag member found start not_empty documents inside close =>
    obtain ⟨inner, rfl⟩ := hfirst.exists_rest hne start ⟨second, htext⟩
    cases hfirst.closes start not_empty documents with
    | @cons body' ending' _ rest _ _ document close' others =>
      have hrest : body' ++ ('<' :: '/' :: ending' ++ '>' :: (rest ++ second)) =
          body ++ ('<' :: '/' :: ending ++ '>' :: []) := by simpa using htext
      obtain rfl := document.eq_of_append_close inside close' close hrest
      have hending : '/' :: ending' ++ '>' :: (rest ++ second) = '/' :: ending ++ '>' :: [] :=
        (List.cons.inj (List.append_cancel_left hrest)).2
      exact (List.append_eq_nil_iff.mp (close'.rest_unique close hending)).2

/-! ### Truncation -/

/-- **A truncated document is never accepted.** Behind a text that is scanned, an element cut short
is not scanned: something lacks its end, a construct or an element. -/
theorem scan_truncated {first element cut : Text} {members : List MemberBlock}
    (hfirst : scan memberElement first = .ok members) (helement : IsElement memberElement element)
    (hcut : cut <+: element) (hne : cut ≠ []) (hproper : cut ≠ element) :
    ∃ line reason, scan memberElement (first ++ cut) = .error ⟨line, reason⟩ ∧
      ((∃ kind, reason = .unfinished kind) ∨ ∃ name, reason = .unclosed name) := by
  obtain ⟨found, hdocument⟩ := helement.exists_document
  rcases scan_prefix hdocument.scan_eq hcut with ⟨early, hearly⟩ | ⟨line, reason, hscan, hreason⟩
  · exfalso
    obtain ⟨rest, rfl⟩ := hcut
    have hrest : rest = [] := helement.eq_nil_of_append (document_of_scan hearly) hne
    rw [hrest, List.append_nil] at hproper
    exact hproper rfl
  · refine ⟨line + Text.lineFeeds first, reason, ?_, hreason⟩
    rw [scan_append_eq hfirst, hscan]
    rfl

set_option maxRecDepth 4000 in
/-- Behind a processing instruction stands an element around a comment. It is cut short inside the
mark that begins the comment, where a declaration is read. -/
theorem scan_truncated_commentMark :
    scan "member".toList "<?xml?>".toList = .ok [] ∧
      IsElement "member".toList "<d><!-- > --></d>".toList ∧
      ∃ line reason,
        scan "member".toList ("<?xml?>".toList ++ "<d><!-".toList) = .error ⟨line, reason⟩ ∧
          ((∃ kind, reason = .unfinished kind) ∨ ∃ name, reason = .unclosed name) := by
  have hfirst : scan "member".toList "<?xml?>".toList = .ok [] := rfl
  have hcontent : TagContent ['d'] := .character (by decide) (by decide) (by decide) .nil
  have hhead : ∀ c ∈ ['d'].head?, c ∉ ['!', '?', '/'] := by simp
  have hstart : StartTag ['d'] ⟨['d'], [], false⟩ := startTag_ofContent hcontent hhead (by decide)
  have hclose : EndTag ['d'] ['d'] :=
    ⟨.character (by decide) (by decide) (by decide) hcontent, rfl⟩
  have hinside : Document "member".toList "<!-- > -->".toList [] := document_of_scan rfl
  have helement : IsElement "member".toList "<d><!-- > --></d>".toList :=
    .around hstart rfl (.other (by decide)) hinside hclose
  have hcut : "<d><!-".toList <+: "<d><!-- > --></d>".toList := by decide
  exact ⟨hfirst, helement, scan_truncated hfirst helement hcut (by decide) (by decide)⟩

end Markup

end SymbolDocs
