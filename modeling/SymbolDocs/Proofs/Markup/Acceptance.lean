import SymbolDocs.Proofs.Markup.Lexing
import SymbolDocs.Proofs.Outcome
set_option autoImplicit false

/-!
# The scanner accepts its grammar

A text is scanned successfully exactly when it is a document, and the members found are those that
the derivation yields.

## Main definitions

* `Markup.Progress.run` — the progress behind a text.
* `Markup.Progress.after` — the progress behind a document, told from its members.
* `Markup.Closes` — a text that closes some open elements.

## Main results

* `Markup.Document.run_eq` — a document is passed over as a whole, wherever it stands.
* `Markup.closes_of_run` — a text behind which no element is open closes those open before it.
* `Markup.scan_eq_ok_iff` — the texts scanned successfully are the documents.

## Design

One direction is an induction on the derivation, with anything open before the document and anything
following it. The other reads a derivation off the tokens, from the last to the first: the stack of
open elements says which documents and end tags are still to come.
-/

namespace SymbolDocs

namespace Markup

/-! ### Tags and their parts -/

/-- **The parts of the content of a start tag are those it is split into.** -/
theorem StartTag.ofContent_eq {content : Text} {tag : Tag} (h : StartTag content tag) :
    Tag.ofContent content = tag := by
  obtain ⟨name, rest, isEmpty⟩ := tag
  have hname : ∀ c ∈ name, (!Text.isBlank c) = true := fun c hc => by simp [h.name_unblank c hc]
  have htake : (name ++ rest).takeWhile (fun c => !Text.isBlank c) = name := by
    rw [List.takeWhile_append_of_pos hname]
    cases rest with
    | nil => simp
    | cons c rest => simp [h.rest_blank c rfl]
  have hdrop : (name ++ rest).dropWhile (fun c => !Text.isBlank c) = rest := by
    rw [List.dropWhile_append_of_pos hname]
    cases rest with
    | nil => rfl
    | cons c rest => simp [h.rest_blank c rfl]
  have hparts := h.parts
  cases isEmpty with
  | true =>
    obtain rfl : content = name ++ rest ++ ['/'] := hparts
    rw [Tag.ofContent, if_pos (by simp), List.dropLast_concat]
    simp only [htake, hdrop]
  | false =>
    obtain rfl : content = name ++ rest := by simpa using hparts
    rw [Tag.ofContent, if_neg (h.slash rfl)]
    simp only [htake, hdrop]

/-- The content of a tag with a name is that of a start tag. -/
theorem startTag_ofContent {content : Text} (h : TagContent content)
    (hhead : ∀ c ∈ content.head?, c ∉ ['!', '?', '/']) (hname : (Tag.ofContent content).name ≠ []) :
    StartTag content (Tag.ofContent content) := by
  have hunblank : ∀ (body : Text), ∀ c ∈ body.takeWhile (fun c => !Text.isBlank c),
      Text.isBlank c = false := by
    intro body c hc
    simpa using List.all_eq_true.mp List.all_takeWhile c hc
  have hblank : ∀ (body : Text), ∀ c ∈ (body.dropWhile fun c => !Text.isBlank c).head?,
      Text.isBlank c = true := by
    intro body c hc
    have hnot := List.head?_dropWhile_not (fun c => !Text.isBlank c) body
    rw [Option.mem_def.mp hc] at hnot
    simpa using hnot
  by_cases hslash : content.getLast? = some '/'
  · have htag : Tag.ofContent content =
        ⟨content.dropLast.takeWhile fun c => !Text.isBlank c,
          content.dropLast.dropWhile fun c => !Text.isBlank c, true⟩ := by
      rw [Tag.ofContent, if_pos hslash]
    have hcontent : content = content.dropLast ++ ['/'] := by
      obtain ⟨front, rfl⟩ := List.getLast?_eq_some_iff.mp hslash
      simp
    rw [htag] at hname ⊢
    refine ⟨h, hhead, ?_, by simp, hname, hunblank _, hblank _⟩
    rw [List.takeWhile_append_dropWhile]
    exact hcontent
  · have htag : Tag.ofContent content =
        ⟨content.takeWhile fun c => !Text.isBlank c,
          content.dropWhile fun c => !Text.isBlank c, false⟩ := by
      rw [Tag.ofContent, if_neg hslash]
    rw [htag] at hname ⊢
    refine ⟨h, hhead, ?_, fun _ => hslash, hname, hunblank _, hblank _⟩
    rw [List.takeWhile_append_dropWhile]
    simp

/-! ### Progress -/

namespace Progress

/-- The progress behind a text. -/
def run (memberElement : Text) (progress : Progress) (text : Text) : Except SyntaxFault Progress :=
  (tokens text).foldlM (step memberElement) progress

/-- The progress behind a text that leaves the same elements open and has some members. -/
def after (progress : Progress) (text : Text) (members : List MemberBlock) : Progress :=
  { progress with
    line := progress.line + Text.lineFeeds text
    content := text.reverse ++ progress.content
    found := members.reverse ++ progress.found }

/-- Behind the empty text nothing has changed. -/
@[simp] theorem after_nil (progress : Progress) : progress.after [] [] = progress := by
  simp [after, Text.lineFeeds]

/-- Behind one text after the other are the two texts and their members. -/
theorem after_after (progress : Progress) (first second : Text)
    (members others : List MemberBlock) :
    (progress.after first members).after second others =
      progress.after (first ++ second) (members ++ others) := by
  simp [after, Text.lineFeeds, Nat.add_assoc]

/-- A source passed over has no members. -/
theorem pass_eq_after (progress : Progress) (source : Text) :
    progress.pass source = progress.after source [] := by
  simp [pass, after]

/-- The open elements behind a text are those before it. -/
@[simp] theorem opened_after (progress : Progress) (text : Text) (members : List MemberBlock) :
    (progress.after text members).opened = progress.opened :=
  rfl

/-- A text is scanned token by token. -/
theorem run_of_begins {text rest : Text} {token : Token} (h : Begins text token rest)
    (memberElement : Text) (progress : Progress) :
    progress.run memberElement text =
      progress.step memberElement token >>= fun next => next.run memberElement rest := by
  rw [run, tokens_of_begins h, List.foldlM_cons]
  rfl

/-- **A start tag with a name documents what the grammar says.** -/
theorem memberName_eq_ok_iff {progress : Progress} {memberElement : Text} {tag : Tag}
    {member : Option Text} :
    progress.memberName memberElement tag = .ok member ↔
      tag.name ≠ [] ∧ Documents memberElement tag member := by
  rw [memberName]
  by_cases hname : tag.name = []
  · simp [hname, fail]
  · rw [if_neg hname]
    by_cases his : tag.name = memberElement
    · rw [if_pos his]
      cases hattribute : tag.attribute? "name".toList with
      | none =>
        refine ⟨fun h => by simp [fail] at h, fun ⟨_, h⟩ => ?_⟩
        cases h with
        | member _ named => exact absurd (hattribute.symm.trans named) (by simp)
        | other not_member => exact absurd his not_member
      | some name =>
        constructor
        · intro h
          obtain rfl := Except.ok.inj h
          exact ⟨hname, .member his hattribute⟩
        · rintro ⟨-, h⟩
          cases h with
          | member _ named =>
            obtain rfl := Option.some.inj (hattribute.symm.trans named)
            rfl
          | other not_member => exact absurd his not_member
    · rw [if_neg his]
      constructor
      · intro h
        obtain rfl := Except.ok.inj h
        exact ⟨hname, .other his⟩
      · rintro ⟨-, h⟩
        cases h with
        | member is_member _ => exact absurd is_member his
        | other _ => rfl

/-- A start tag that is passed over documents a member or none, and opens its element. -/
theorem exists_of_open {progress next : Progress} {memberElement source content : Text}
    (is_content : TagContent content) (head : ∀ c ∈ content.head?, c ∉ ['!', '?', '/'])
    (h : progress.open memberElement source (.ofContent content) = .ok next) :
    ∃ member, StartTag content (.ofContent content) ∧
      Documents memberElement (.ofContent content) member ∧
      next = (progress.pass source).openElement (.ofContent content) member := by
  obtain ⟨member, hmember, hnext⟩ := bind_eq_ok.mp h
  obtain ⟨hname, hdocuments⟩ := memberName_eq_ok_iff.mp hmember
  exact ⟨member, startTag_ofContent is_content head hname, hdocuments, (Except.ok.inj hnext).symm⟩

/-- Behind the tag of an empty element is the member that it documents, with an empty body. -/
theorem openElement_of_isEmpty {tag : Tag} (h : tag.isEmpty = true) (progress : Progress)
    (source : Text) (member : Option Text) :
    (progress.pass source).openElement tag member = progress.after source (yielded member []) := by
  cases member <;> simp [openElement, h, pass, after, yielded]

/-- The open elements behind the start tag of an element that is not empty. -/
theorem opened_openElement {tag : Tag} (h : tag.isEmpty = false) (progress : Progress)
    (member : Option Text) :
    ∃ place, (progress.openElement tag member).opened = ⟨tag.name, place⟩ :: progress.opened := by
  cases member <;> simp [openElement, h]

/-- An end tag closes the innermost open element, which has its name. -/
theorem exists_of_close {progress next : Progress} {source name : Text}
    (h : progress.close source name = .ok next) :
    ∃ element, progress.opened = element :: next.opened ∧ element.name = name := by
  rw [close] at h
  split at h
  · simp [fail] at h
  · next element others hopened =>
    split at h
    · next hname =>
      obtain rfl := Except.ok.inj h
      refine ⟨element, ?_, hname⟩
      rw [hopened]
      cases element.member <;> rfl
    · simp [fail] at h

/-- **Behind an element is what stood before it, with the members inside and then its own.** -/
theorem close_openElement {tag : Tag} (h : tag.isEmpty = false) (progress : Progress)
    (source body ending : Text) (member : Option Text) (inner : List MemberBlock) :
    (((progress.pass source).openElement tag member).after body inner).close ending tag.name =
      .ok (progress.after (source ++ body ++ ending) (inner ++ yielded member body)) := by
  cases member with
  | none =>
    simp [openElement, h, close, closeMember, pass, after, yielded, Text.lineFeeds, Nat.add_assoc]
  | some name =>
    simp [openElement, h, close, closeMember, pass, after, yielded, Text.lineFeeds, Nat.add_assoc]

end Progress

/-! ### Documents are scanned -/

/-- The start tag of an element is passed over, and opens the element. -/
theorem StartTag.run_eq {memberElement content : Text} {tag : Tag} {member : Option Text}
    (start : StartTag content tag) (documents : Documents memberElement tag member)
    (progress : Progress) (rest : Text) :
    progress.run memberElement ('<' :: content ++ '>' :: rest) =
      ((progress.pass ('<' :: content ++ ['>'])).openElement tag member).run memberElement
        rest := by
  have hbegins :
      Begins ('<' :: content ++ '>' :: rest) (.open ('<' :: content ++ ['>']) tag) rest := by
    rw [← start.ofContent_eq]
    exact .open start.is_content start.head
  have hmember : progress.memberName memberElement tag = .ok member :=
    Progress.memberName_eq_ok_iff.mpr ⟨start.name_ne_nil, documents⟩
  rw [Progress.run_of_begins hbegins, Progress.step, Progress.open, hmember]
  rfl

/-- Text without tags is passed over. -/
theorem run_untagged {run : Text} (h : '<' ∉ run) (memberElement : Text) (progress : Progress)
    (rest : Text) :
    progress.run memberElement (run ++ rest) = (progress.after run []).run memberElement rest := by
  induction run generalizing progress with
  | nil => simp
  | cons c run ih =>
    obtain ⟨hc, hrun⟩ := not_or.mp (mt List.mem_cons.mpr h)
    rw [List.cons_append, Progress.run_of_begins (.character (Ne.symm hc))]
    show (progress.pass [c]).run memberElement (run ++ rest) = _
    rw [ih hrun, Progress.pass_eq_after, Progress.after_after]
    rfl

/-- **A document is passed over as a whole**, wherever it stands.

**Proof sketch.** By induction on the derivation. Inside an element the progress is that behind its
start tag, and its end tag closes what the start tag opened. -/
theorem Document.run_eq {memberElement text : Text} {members : List MemberBlock}
    (h : Document memberElement text members) (progress : Progress) (rest : Text) :
    progress.run memberElement (text ++ rest) =
      (progress.after text members).run memberElement rest := by
  induction h generalizing progress rest with
  | nil => rw [List.nil_append, Progress.after_nil]
  | text untagged _ ih =>
    rw [List.append_assoc, run_untagged untagged, ih, Progress.after_after, List.nil_append]
  | @skipped source after members construct _ ih =>
    obtain ⟨inner, rfl⟩ := construct.exists_cons
    rw [List.append_assoc, List.cons_append, Progress.run_of_begins (.skipped construct)]
    show (progress.pass ('<' :: inner)).run memberElement (after ++ rest) = _
    rw [ih, Progress.pass_eq_after, Progress.after_after, List.nil_append]
  | @empty content after tag member members start is_empty documents _ ih =>
    have htext : '<' :: content ++ '>' :: after ++ rest =
        '<' :: content ++ '>' :: (after ++ rest) := by simp
    have hsource : '<' :: content ++ ['>'] ++ after = '<' :: content ++ '>' :: after := by simp
    rw [htext, start.run_eq documents, Progress.openElement_of_isEmpty is_empty, ih,
      Progress.after_after, hsource]
  | @element content body ending after tag member inner members start not_empty documents _ close _
      ihinside ih =>
    have htext : '<' :: content ++ '>' :: (body ++ '<' :: '/' :: ending ++ '>' :: after) ++ rest =
        '<' :: content ++ '>' :: (body ++ ('<' :: '/' :: ending ++ '>' :: (after ++ rest))) := by
      simp
    have hsource : '<' :: content ++ ['>'] ++ body ++ ('<' :: '/' :: ending ++ ['>']) ++ after =
        '<' :: content ++ '>' :: (body ++ '<' :: '/' :: ending ++ '>' :: after) := by simp
    rw [htext, start.run_eq documents, ihinside, Progress.run_of_begins (.close close),
      Progress.step, Progress.close_openElement not_empty]
    show (progress.after _ _).run memberElement (after ++ rest) = _
    rw [ih, Progress.after_after, hsource]

/-! ### Scanned texts are documents -/

/-- A text that closes some elements, the innermost first, and leaves none open: for each a document
and its end tag, and a document behind the last. -/
inductive Closes (memberElement : Text) : List Text → Text → Prop where
  /-- No element to close. -/
  | nil {text : Text} {members : List MemberBlock}
      (document : Document memberElement text members) :
      Closes memberElement [] text
  /-- The rest of the innermost element, and what closes the others. -/
  | cons {body ending name rest : Text} {names : List Text} {members : List MemberBlock}
      (document : Document memberElement body members) (close : EndTag ending name)
      (others : Closes memberElement names rest) :
      Closes memberElement (name :: names) (body ++ '<' :: '/' :: ending ++ '>' :: rest)

/-- What may stand before a document may stand before a text that closes some elements. -/
theorem Closes.append {memberElement text : Text} {names : List Text}
    (h : Closes memberElement names text) (front : Text)
    (hfront : ∀ {rest : Text} {members : List MemberBlock}, Document memberElement rest members →
      ∃ others, Document memberElement (front ++ rest) others) :
    Closes memberElement names (front ++ text) := by
  cases h with
  | nil document =>
    obtain ⟨others, hothers⟩ := hfront document
    exact .nil hothers
  | @cons body ending name rest names members document close others =>
    obtain ⟨_, hbody⟩ := hfront document
    have htext : front ++ (body ++ '<' :: '/' :: ending ++ '>' :: rest) =
        front ++ body ++ '<' :: '/' :: ending ++ '>' :: rest := by simp
    rw [htext]
    exact .cons hbody close others

/-- An empty element may stand before a text that closes some elements. -/
theorem Closes.append_empty {memberElement content rest : Text} {names : List Text} {tag : Tag}
    {member : Option Text} (h : Closes memberElement names rest) (start : StartTag content tag)
    (is_empty : tag.isEmpty = true) (documents : Documents memberElement tag member) :
    Closes memberElement names ('<' :: content ++ '>' :: rest) := by
  rw [List.append_cons]
  refine h.append _ fun {after members} document => ⟨yielded member [] ++ members, ?_⟩
  rw [← List.append_cons]
  exact .empty start is_empty documents document

/-- Behind a start tag, what closes its element and some others closes the others: the text up to
the end tag is an element of its own. -/
theorem Closes.append_element {memberElement content rest : Text} {names : List Text} {tag : Tag}
    {member : Option Text} (h : Closes memberElement (tag.name :: names) rest)
    (start : StartTag content tag) (not_empty : tag.isEmpty = false)
    (documents : Documents memberElement tag member) :
    Closes memberElement names ('<' :: content ++ '>' :: rest) := by
  cases h with
  | @cons body ending _ after _ inner document close others =>
    have htext : ∀ after : Text, '<' :: content ++ '>' :: (body ++ '<' :: '/' :: ending ++
        '>' :: after) = '<' :: content ++ '>' :: (body ++ '<' :: '/' :: ending ++ ['>']) ++
        after := by simp
    rw [htext]
    refine others.append _ fun {after members} following =>
      ⟨inner ++ yielded member body ++ members, ?_⟩
    rw [← htext]
    exact .element start not_empty documents document close following

/-- **A text behind which no element is open closes those open before it.**

**Proof sketch.** By induction on the tokens. A start tag leaves its own element to be closed by the
rest, whose first document is then the body of that element. -/
theorem closes_of_run {memberElement text : Text} {tokens : List Token} (h : Lexes text tokens)
    {progress last : Progress}
    (hrun : tokens.foldlM (Progress.step memberElement) progress = .ok last)
    (hlast : last.opened = []) :
    Closes memberElement (progress.opened.map Opened.name) text := by
  induction h generalizing progress with
  | nil =>
    obtain rfl : progress = last := Except.ok.inj hrun
    rw [hlast]
    exact .nil .nil
  | unfinished _ => simp [Progress.step, Progress.fail, bind, Except.bind] at hrun
  | @cons text rest token following first _ ih =>
    rw [List.foldlM_cons] at hrun
    obtain ⟨next, hstep, hrun⟩ := bind_eq_ok.mp hrun
    have hrest := ih hrun
    cases first with
    | @character c _ plain =>
      obtain rfl : progress.pass [c] = next := Except.ok.inj hstep
      exact hrest.append [c] fun document =>
        ⟨_, .text (by simpa using Ne.symm plain) document⟩
    | @skipped inner _ construct =>
      obtain rfl : progress.pass ('<' :: inner) = next := Except.ok.inj hstep
      exact hrest.append ('<' :: inner) fun document => ⟨_, .skipped construct document⟩
    | @close ending name _ tag =>
      obtain ⟨element, hopened, hname⟩ := Progress.exists_of_close hstep
      rw [hopened, List.map_cons, hname]
      exact .cons .nil tag hrest
    | @«open» content _ is_content head =>
      obtain ⟨member, hstart, hdocuments, rfl⟩ := Progress.exists_of_open is_content head hstep
      cases hempty : (Tag.ofContent content).isEmpty with
      | true =>
        rw [Progress.openElement_of_isEmpty hempty, Progress.opened_after] at hrest
        exact hrest.append_empty hstart hempty hdocuments
      | false =>
        obtain ⟨place, hopened⟩ := Progress.opened_openElement hempty
          (progress.pass ('<' :: content ++ ['>'])) member
        rw [hopened, List.map_cons] at hrest
        exact hrest.append_element hstart hempty hdocuments

/-! ### Acceptance -/

/-- A text is scanned by running over it, up to an end with no element open. -/
theorem scan_eq_run (memberElement text : Text) :
    scan memberElement text = Progress.run memberElement {} text >>= Progress.finish :=
  rfl

/-- A document is scanned into its members. -/
theorem Document.scan_eq {memberElement text : Text} {members : List MemberBlock}
    (h : Document memberElement text members) : scan memberElement text = .ok members := by
  have hrun : Progress.run memberElement {} text = .ok (Progress.after {} text members) := by
    have hwhole := h.run_eq {} []
    rwa [List.append_nil] at hwhole
  rw [scan_eq_run, hrun]
  simp [bind, Except.bind, Progress.finish, Progress.after]

/-- A text that is scanned into members is a document with these members. -/
theorem document_of_scan {memberElement text : Text} {members : List MemberBlock}
    (h : scan memberElement text = .ok members) : Document memberElement text members := by
  obtain ⟨last, hrun, hfinish⟩ := bind_eq_ok.mp h
  have hlast : last.opened = [] := by
    rw [Progress.finish] at hfinish
    split at hfinish
    · assumption
    · simp [Progress.fail] at hfinish
  cases closes_of_run (lexes_tokens text) hrun hlast with
  | @nil _ found document =>
    obtain rfl : found = members := Except.ok.inj (document.scan_eq.symm.trans h)
    exact document

/-- **The scanner accepts exactly its grammar.** A text is scanned successfully exactly when it is a
document, and the members found are those of the document.

**Proof sketch.** A scanned text closes no element but its own, and so is a document. A document is
passed over as a whole from the first line on, and leaves no element open. -/
theorem scan_eq_ok_iff (memberElement text : Text) (members : List MemberBlock) :
    scan memberElement text = .ok members ↔ Document memberElement text members :=
  ⟨document_of_scan, Document.scan_eq⟩

end Markup

end SymbolDocs
