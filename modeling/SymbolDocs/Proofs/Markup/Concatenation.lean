import SymbolDocs.Proofs.Markup.Acceptance
set_option autoImplicit false

/-!
# Documents one after the other

A text behind a document is scanned as if it stood alone: its members follow those of the document,
and a fault in it is found as many lines further on as the document has.

## Main definitions

* `Markup.SyntaxFault.behind` — a fault of a text that stands behind another.
* `Markup.Progress.behind` — the progress in a text that stands behind another.

## Main results

* `Markup.Progress.step_behind` — a token makes the same of the progress behind another text.
* `Markup.scan_append_eq` — the outcome for a text behind a document.
* `Markup.scan_append` — scanning is a homomorphism for concatenation.

## Design

The text before shows in the line, in the members found and in the text that no open member
encloses. This text is the content reached where no member is open. Where members are open, it is
what the outermost of them keeps from before its start tag.
-/

namespace SymbolDocs

namespace Markup

/-! ### Standing behind a text -/

/-- The fault of a text that stands behind another one. -/
def SyntaxFault.behind (earlier : Text) (fault : SyntaxFault) : SyntaxFault :=
  { fault with line := fault.line + Text.lineFeeds earlier }

namespace Progress

/-- The text kept in reverse inside some open elements, with another text before everything: unless
a member among the elements encloses the text, the other one stands in front of it. -/
def contentBehind (earlier content : Text) (opened : List Opened) : Text :=
  if opened.any fun element => element.member.isSome then content else content ++ earlier.reverse

/-- The open elements with another text before everything. -/
def openedBehind (earlier : Text) : List Opened → List Opened
  | [] => []
  | ⟨name, none⟩ :: opened => ⟨name, none⟩ :: openedBehind earlier opened
  | ⟨name, some member⟩ :: opened =>
    ⟨name, some { member with before := contentBehind earlier member.before opened }⟩ ::
      openedBehind earlier opened

/-- The progress in a text that stands behind another one with some members. -/
def behind (earlier : Text) (members : List MemberBlock) (progress : Progress) : Progress where
  line := progress.line + Text.lineFeeds earlier
  content := contentBehind earlier progress.content progress.opened
  found := progress.found ++ members.reverse
  opened := openedBehind earlier progress.opened

/-- What is read later stands before what was read. -/
theorem contentBehind_append (earlier later content : Text) (opened : List Opened) :
    contentBehind earlier (later ++ content) opened =
      later ++ contentBehind earlier content opened := by
  rw [contentBehind, contentBehind]
  split
  · rfl
  · rw [List.append_assoc]

/-- An element that documents no member encloses no text. -/
theorem contentBehind_other (earlier content name : Text) (opened : List Opened) :
    contentBehind earlier content (⟨name, none⟩ :: opened) =
      contentBehind earlier content opened := by
  simp [contentBehind]

/-- Inside a member, nothing stands before the text that it encloses. -/
theorem contentBehind_member (earlier content name : Text) (member : OpenMember)
    (opened : List Opened) :
    contentBehind earlier content (⟨name, some member⟩ :: opened) = content := by
  simp [contentBehind]

/-- The start of a text behind a document is the end of the document. -/
theorem behind_start (earlier : Text) (members : List MemberBlock) :
    behind earlier members {} = after {} earlier members := by
  simp [behind, after, contentBehind, openedBehind]

/-! ### Steps behind a text -/

variable (earlier : Text) (members : List MemberBlock) (progress : Progress)

/-- A source is passed over in the same way behind another text. -/
theorem pass_behind (source : Text) :
    (progress.behind earlier members).pass source =
      (progress.pass source).behind earlier members := by
  simp only [pass, behind, contentBehind_append, Nat.add_right_comm]

/-- An element is opened in the same way behind another text. -/
theorem openElement_behind (tag : Tag) (member : Option Text) :
    (progress.behind earlier members).openElement tag member =
      (progress.openElement tag member).behind earlier members := by
  cases hempty : tag.isEmpty with
  | true => cases member <;> simp [openElement, hempty, behind]
  | false =>
    cases member with
    | none => simp [openElement, hempty, behind, openedBehind, contentBehind_other]
    | some name => simp [openElement, hempty, behind, openedBehind, contentBehind_member]

/-- A start tag documents the same member behind another text. -/
theorem memberName_behind (memberElement : Text) (tag : Tag) :
    (progress.behind earlier members).memberName memberElement tag =
      (progress.memberName memberElement tag).mapError (SyntaxFault.behind earlier) := by
  rw [memberName, memberName]
  split
  · rfl
  · split
    · cases tag.attribute? "name".toList <;> rfl
    · rfl

/-- An end tag closes the same element behind another text. -/
theorem close_behind (source name : Text) :
    (progress.behind earlier members).close source name =
      ((progress.close source name).mapError (SyntaxFault.behind earlier)).map
        (behind earlier members) := by
  obtain ⟨line, content, found, opened⟩ := progress
  cases opened with
  | nil => rfl
  | cons element opened =>
    obtain ⟨opener, member⟩ := element
    cases member with
    | none =>
      simp only [close, behind, openedBehind, closeMember, contentBehind_other]
      by_cases hname : opener = name
      · rw [if_pos hname, if_pos hname]
        exact congrArg Except.ok (pass_behind earlier members ⟨line, content, found, opened⟩ source)
      · rw [if_neg hname, if_neg hname]
        rfl
    | some member =>
      simp only [close, behind, openedBehind, closeMember, contentBehind_member]
      by_cases hname : opener = name
      · rw [if_pos hname, if_pos hname]
        -- the text of the member is put back behind the text before its start tag
        refine congrArg Except.ok ?_
        rw [← pass_behind]
        simp only [behind, contentBehind_append, List.cons_append]
      · rw [if_neg hname, if_neg hname]
        rfl

/-- **A token makes the same of the progress behind another text.** -/
theorem step_behind (memberElement : Text) (token : Token) :
    (progress.behind earlier members).step memberElement token =
      ((progress.step memberElement token).mapError (SyntaxFault.behind earlier)).map
        (behind earlier members) := by
  cases token with
  | character c => exact congrArg Except.ok (pass_behind earlier members progress [c])
  | skipped source => exact congrArg Except.ok (pass_behind earlier members progress source)
  | close source name => exact close_behind earlier members progress source name
  | «open» source tag =>
    rw [step, step, «open», «open», memberName_behind, pass_behind]
    cases progress.memberName memberElement tag with
    | error fault => rfl
    | ok member =>
      exact congrArg Except.ok
        (openElement_behind earlier members (progress.pass source) tag member)
  | unfinished construct => rfl

/-- What a text makes of the progress is the same behind another text. -/
theorem run_behind (memberElement text : Text) :
    (progress.behind earlier members).run memberElement text =
      ((progress.run memberElement text).mapError (SyntaxFault.behind earlier)).map
        (behind earlier members) := by
  rw [run, run]
  generalize tokens text = tokens
  induction tokens generalizing progress with
  | nil => rfl
  | cons token tokens ih =>
    rw [List.foldlM_cons, List.foldlM_cons, step_behind]
    cases progress.step memberElement token with
    | error fault => rfl
    | ok next => exact ih next

/-- The members found by the end are those of the earlier text and those of this one. -/
theorem finish_behind :
    (progress.behind earlier members).finish =
      (progress.finish.mapError (SyntaxFault.behind earlier)).map (members ++ ·) := by
  obtain ⟨line, content, found, opened⟩ := progress
  cases opened with
  | nil =>
    show Except.ok (found ++ members.reverse).reverse = Except.ok (members ++ found.reverse)
    rw [List.reverse_append, List.reverse_reverse]
  | cons element opened =>
    obtain ⟨name, member⟩ := element
    cases member <;> rfl

end Progress

/-! ### Concatenation -/

/-- **A text behind a document is scanned as if it stood alone**, apart from the members and the
lines of the document.

**Proof sketch.** Behind the document no element is open, which is how a text begins that stands
behind another. From there on each token makes the same of the progress as if the text stood
alone. -/
theorem scan_append_eq {memberElement first : Text} {members : List MemberBlock}
    (h : scan memberElement first = .ok members) (second : Text) :
    scan memberElement (first ++ second) =
      ((scan memberElement second).mapError (SyntaxFault.behind first)).map (members ++ ·) := by
  have hdocument := (document_of_scan h).run_eq {} second
  rw [← Progress.behind_start, Progress.run_behind] at hdocument
  rw [scan_eq_run, hdocument, scan_eq_run]
  cases Progress.run memberElement {} second with
  | error fault => rfl
  | ok last => exact Progress.finish_behind first members last

/-- Behind a document stands another one, and the two are a document. -/
theorem Document.append {memberElement first second : Text} {members others : List MemberBlock}
    (h₁ : Document memberElement first members) (h₂ : Document memberElement second others) :
    Document memberElement (first ++ second) (members ++ others) := by
  have hscan := scan_append_eq h₁.scan_eq second
  rw [h₂.scan_eq] at hscan
  exact document_of_scan hscan

/-- **Scanning is a homomorphism for concatenation.** Behind a text that is scanned, another one
adds its members if it is scanned alone, and else fails for the reason for which it fails alone, as
many lines further on as the first text has line feeds. -/
theorem scan_append {memberElement first : Text} {members : List MemberBlock}
    (h : scan memberElement first = .ok members) (second : Text) :
    (∀ others, scan memberElement second = .ok others →
      scan memberElement (first ++ second) = .ok (members ++ others)) ∧
    ∀ line reason, scan memberElement second = .error ⟨line, reason⟩ →
      scan memberElement (first ++ second) =
        .error ⟨line + Text.lineFeeds first, reason⟩ := by
  have happend := scan_append_eq h second
  refine ⟨fun others hsecond => ?_, fun line reason hsecond => ?_⟩
  · rw [happend, hsecond]
    rfl
  · rw [happend, hsecond]
    rfl

set_option maxRecDepth 4000 in
/-- Behind a member on two lines another one is found, and an end tag too many is reported two lines
further on. -/
theorem scan_append_twoLines :
    scan "member".toList "<member name='A'>a\n</member>\n".toList =
        .ok [⟨['A'], "a\n".toList⟩] ∧
      scan "member".toList ("<member name='A'>a\n</member>\n".toList ++
        "<member name='B'/>".toList) = .ok [⟨['A'], "a\n".toList⟩, ⟨['B'], []⟩] ∧
      scan "member".toList ("<member name='A'>a\n</member>\n".toList ++ "<b>\n</c>".toList) =
        .error ⟨4, .mismatchedClose ['c'] ['b']⟩ := by
  have hfirst : scan "member".toList "<member name='A'>a\n</member>\n".toList =
      .ok [⟨['A'], "a\n".toList⟩] := rfl
  refine ⟨hfirst, ?_, ?_⟩
  · exact (scan_append hfirst "<member name='B'/>".toList).1 [⟨['B'], []⟩] rfl
  · exact (scan_append hfirst "<b>\n</c>".toList).2 2 (.mismatchedClose ['c'] ['b']) rfl

end Markup

end SymbolDocs
