import SymbolDocs.Proofs.Markup.Concatenation
set_option autoImplicit false

/-!
# Where a text is at fault

A text that cannot be scanned is at fault in one place: in the first construct that cannot follow
the text before it, or at its end, where an element is open. The text before that place is the
longest beginning of the whole that is a document but for open elements.

## Main definitions

* `Markup.LeavesOpen` — a text that is a document but for the elements that it leaves open.
* `Markup.Faulty` — a construct that is at fault inside some open elements, with the reason.
* `Markup.Located` — the fault of a text.
* `Markup.Promising` — a text that is scanned, or is not because an element is open.

## Main results

* `Markup.scan_eq_error_iff` — the fault found is that of the text.
* `Markup.promising_iff` — the promising texts are the documents but for open elements.
* `Markup.scan_error_located` — the line reported is that of the end of the longest promising
  beginning.

## Design

As `Document` is the grammar of what is scanned, `Located` is the grammar of what is not. Both tell
a construct by its own text.
-/

namespace SymbolDocs

namespace Markup

variable {memberElement : Text}

/-! ### Open elements -/

/-- A text that is a document but for some elements that it leaves open, the innermost first. -/
inductive LeavesOpen (memberElement : Text) : Text → List Text → Prop where
  /-- A document leaves no element open. -/
  | document {text : Text} {members : List MemberBlock}
      (document : Document memberElement text members) : LeavesOpen memberElement text []
  /-- A start tag, and a document inside the element that it opens. -/
  | element {front content body : Text} {tag : Tag} {member : Option Text}
      {inner : List MemberBlock} {outer : List Text}
      (outside : LeavesOpen memberElement front outer)
      (start : StartTag content tag) (not_empty : tag.isEmpty = false)
      (documents : Documents memberElement tag member)
      (inside : Document memberElement body inner) :
      LeavesOpen memberElement (front ++ '<' :: content ++ '>' :: body) (tag.name :: outer)

/-- An element is opened on the line reached. -/
theorem Progress.line_openElement (progress : Progress) (tag : Tag) (member : Option Text) :
    (progress.openElement tag member).line = progress.line := by
  cases hempty : tag.isEmpty <;> cases member <;> simp [openElement, hempty]

namespace LeavesOpen

/-- A document behind a text leaves the same elements open. -/
theorem append {text second : Text} {names : List Text} {members : List MemberBlock}
    (h : LeavesOpen memberElement text names) (hsecond : Document memberElement second members) :
    LeavesOpen memberElement (text ++ second) names := by
  cases h with
  | document document => exact .document (document.append hsecond)
  | @element front content body tag _ _ outer outside start not_empty documents inside =>
    have htext : front ++ '<' :: content ++ '>' :: body ++ second =
        front ++ '<' :: content ++ '>' :: (body ++ second) := by simp
    rw [htext]
    exact .element outside start not_empty documents (inside.append hsecond)

/-- An end tag closes the innermost open element, if it has its name. -/
theorem close {text ending name : Text} {outer : List Text}
    (h : LeavesOpen memberElement text (name :: outer)) (hclose : EndTag ending name) :
    LeavesOpen memberElement (text ++ ('<' :: '/' :: ending ++ ['>'])) outer := by
  cases h with
  | @element front content body tag member inner _ outside start not_empty documents inside =>
    have htext : front ++ '<' :: content ++ '>' :: body ++ ('<' :: '/' :: ending ++ ['>']) =
        front ++ ('<' :: content ++ '>' :: (body ++ '<' :: '/' :: ending ++ '>' :: [])) := by simp
    rw [htext]
    exact outside.append (.element start not_empty documents inside hclose .nil)

/-- **A text that leaves some elements open is passed over**, and these are then open. -/
theorem exists_run {text : Text} {names : List Text} (h : LeavesOpen memberElement text names) :
    ∃ progress : Progress, (∀ rest, Progress.run memberElement {} (text ++ rest) =
        progress.run memberElement rest) ∧
      progress.opened.map Opened.name = names ∧ progress.line = 1 + Text.lineFeeds text := by
  induction h with
  | @document text members document =>
    exact ⟨Progress.after {} text members, document.run_eq {}, rfl, rfl⟩
  | @element front content body tag member inner outer _ start not_empty documents inside ih =>
    obtain ⟨progress, hrun, hnames, hline⟩ := ih
    have hsource : ∀ rest : Text, front ++ '<' :: content ++ '>' :: body ++ rest =
        front ++ ('<' :: content ++ '>' :: (body ++ rest)) := by simp
    obtain ⟨place, hopened⟩ := Progress.opened_openElement not_empty
      (progress.pass ('<' :: content ++ ['>'])) member
    refine ⟨((progress.pass ('<' :: content ++ ['>'])).openElement tag member).after body inner,
      fun rest => ?_, ?_, ?_⟩
    · rw [hsource, hrun, start.run_eq documents, inside.run_eq]
    · rw [Progress.opened_after, hopened, List.map_cons, ← hnames]
      rfl
    · rw [Progress.after, Progress.line_openElement, Progress.pass, hline]
      simp [Text.lineFeeds, Nat.add_assoc]

end LeavesOpen

/-! ### Faults -/

/-- A construct is at fault inside some open elements, for a reason. -/
inductive Faulty (memberElement : Text) (names : List Text) : Token → SyntaxReason → Prop where
  /-- A construct without its end. -/
  | unfinished (kind : Construct) : Faulty memberElement names (.unfinished kind) (.unfinished kind)
  /-- An end tag where no element is open. -/
  | unexpectedClose {source name : Text} (none_open : names = []) :
      Faulty memberElement names (.close source name) (.unexpectedClose name)
  /-- An end tag of another name than the innermost open element. -/
  | mismatchedClose {source name innermost : Text} (is_innermost : names.head? = some innermost)
      (differs : innermost ≠ name) :
      Faulty memberElement names (.close source name) (.mismatchedClose name innermost)
  /-- A start tag without a name. -/
  | unnamedElement {source : Text} {tag : Tag} (no_name : tag.name = []) :
      Faulty memberElement names (.open source tag) .unnamedElement
  /-- The start tag of a member element without a name attribute. -/
  | unnamedMember {source : Text} {tag : Tag} (name_ne_nil : tag.name ≠ [])
      (is_member : tag.name = memberElement) (no_attribute : tag.attribute? "name".toList = none) :
      Faulty memberElement names (.open source tag) (.unnamedMember memberElement)

/-- No construct is at fault because an element is not closed. -/
theorem Faulty.ne_unclosed {names : List Text} {token : Token} {reason : SyntaxReason}
    (h : Faulty memberElement names token reason) (name : Text) : reason ≠ .unclosed name := by
  cases h <;> simp

/-- **A construct at fault that is cut short is at fault.** -/
theorem Faulty.exists_of_isPrefix {names : List Text} {cut text : Text} {reason : SyntaxReason}
    (h : Faulty memberElement names (construct text) reason) (hcut : cut <+: text) :
    ∃ other, Faulty memberElement names (construct cut) other := by
  rcases construct_prefix hcut with ⟨kind, hkind⟩ | hwhole
  · rw [hkind]
    exact ⟨_, .unfinished kind⟩
  · rw [hwhole]
    exact ⟨reason, h⟩

namespace Progress

variable {progress : Progress} {line : Nat} {reason : SyntaxReason}

/-- A failure is at the line reached, for its reason. -/
theorem fail_eq_error_iff {α : Type} {cause : SyntaxReason} :
    (progress.fail cause : Except SyntaxFault α) = .error ⟨line, reason⟩ ↔
      line = progress.line ∧ reason = cause := by
  simp [fail, eq_comm]

/-- An end tag cannot be passed over exactly where it is at fault. -/
theorem close_eq_error_iff {source name : Text} :
    progress.close source name = .error ⟨line, reason⟩ ↔
      line = progress.line ∧
        Faulty memberElement (progress.opened.map Opened.name) (.close source name) reason := by
  rw [close]
  cases progress.opened with
  | nil =>
    rw [List.map_nil, fail_eq_error_iff]
    refine and_congr_right fun _ => ⟨fun h => h ▸ .unexpectedClose rfl, fun h => ?_⟩
    cases h with
    | unexpectedClose _ => rfl
    | mismatchedClose is_innermost _ => simp at is_innermost
  | cons element others =>
    rw [List.map_cons]
    by_cases hname : element.name = name
    · simp only [if_pos hname, reduceCtorEq, false_iff]
      rintro ⟨-, h⟩
      cases h with
      | unexpectedClose none_open => simp at none_open
      | mismatchedClose is_innermost differs =>
        obtain rfl := Option.some.inj is_innermost
        exact absurd hname differs
    · simp only [if_neg hname]
      rw [fail_eq_error_iff]
      refine and_congr_right fun _ => ⟨fun h => h ▸ .mismatchedClose rfl hname, fun h => ?_⟩
      cases h with
      | unexpectedClose none_open => simp at none_open
      | mismatchedClose is_innermost _ => rw [Option.some.inj is_innermost]

/-- A start tag cannot be passed over exactly where it is at fault. -/
theorem memberName_eq_error_iff {names : List Text} {source : Text} {tag : Tag} :
    progress.memberName memberElement tag = .error ⟨line, reason⟩ ↔
      line = progress.line ∧ Faulty memberElement names (.open source tag) reason := by
  rw [memberName]
  by_cases hname : tag.name = []
  · rw [if_pos hname, fail_eq_error_iff]
    refine and_congr_right fun _ => ⟨fun h => h ▸ .unnamedElement hname, fun h => ?_⟩
    cases h with
    | unnamedElement _ => rfl
    | unnamedMember name_ne_nil _ _ => exact absurd hname name_ne_nil
  · rw [if_neg hname]
    by_cases his : tag.name = memberElement
    · rw [if_pos his]
      cases hattribute : tag.attribute? "name".toList with
      | some name =>
        simp only [reduceCtorEq, false_iff]
        rintro ⟨-, h⟩
        cases h with
        | unnamedElement no_name => exact absurd no_name hname
        | unnamedMember _ _ no_attribute =>
          exact absurd (hattribute.symm.trans no_attribute) (by simp)
      | none =>
        simp only
        rw [fail_eq_error_iff, his]
        refine and_congr_right fun _ =>
          ⟨fun h => h ▸ .unnamedMember hname his hattribute, fun h => ?_⟩
        cases h with
        | unnamedElement no_name => exact absurd no_name hname
        | unnamedMember _ _ _ => rfl
    · simp only [if_neg his, reduceCtorEq, false_iff]
      rintro ⟨-, h⟩
      cases h with
      | unnamedElement no_name => exact absurd no_name hname
      | unnamedMember _ is_member _ => exact absurd is_member his

/-- **A token cannot be passed over exactly where it is at fault.** -/
theorem step_eq_error_iff {token : Token} :
    progress.step memberElement token = .error ⟨line, reason⟩ ↔
      line = progress.line ∧
        Faulty memberElement (progress.opened.map Opened.name) token reason := by
  cases token with
  | character c => exact ⟨nofun, fun ⟨_, h⟩ => nomatch h⟩
  | skipped source => exact ⟨nofun, fun ⟨_, h⟩ => nomatch h⟩
  | close source name => exact close_eq_error_iff
  | «open» source tag =>
    rw [← memberName_eq_error_iff, step, «open»]
    cases progress.memberName memberElement tag <;> simp [bind, Except.bind]
  | unfinished kind =>
    rw [step, fail_eq_error_iff]
    refine and_congr_right fun _ => ⟨fun h => h ▸ .unfinished kind, fun h => ?_⟩
    cases h with
    | unfinished _ => rfl

end Progress

/-- The fault of a text: an element open at its end, or a construct at fault behind a text that is a
document but for open elements. -/
inductive Located (memberElement text : Text) : SyntaxFault → Prop where
  /-- An element open at the end; the innermost one is reported. -/
  | unclosed {name : Text} {outer : List Text}
      (leaves_open : LeavesOpen memberElement text (name :: outer)) :
      Located memberElement text ⟨1 + Text.lineFeeds text, .unclosed name⟩
  /-- A construct at fault; the line where it begins is reported. -/
  | atConstruct {front rest : Text} {names : List Text} {reason : SyntaxReason}
      (text_eq : text = front ++ '<' :: rest) (leaves_open : LeavesOpen memberElement front names)
      (faulty : Faulty memberElement names (construct rest) reason) :
      Located memberElement text ⟨1 + Text.lineFeeds front, reason⟩

/-- The progress behind a text that leaves some elements open. -/
structure Reached (memberElement front : Text) (progress : Progress) : Prop where
  /-- The open elements are those that the text leaves open. -/
  leaves_open : LeavesOpen memberElement front (progress.opened.map Opened.name)
  /-- The line is that of the end of the text. -/
  line_eq : progress.line = 1 + Text.lineFeeds front

/-- Behind a token the line is further on by the line feeds of the token. -/
theorem Progress.line_of_step {progress next : Progress} {token : Token}
    (h : progress.step memberElement token = .ok next) :
    next.line = progress.line + Text.lineFeeds token.source := by
  cases token with
  | character c =>
    obtain rfl := Except.ok.inj h
    rfl
  | skipped source =>
    obtain rfl := Except.ok.inj h
    rfl
  | close source name =>
    rw [step, close] at h
    split at h
    · simp [fail] at h
    · next element others _ =>
      split at h
      · obtain rfl := Except.ok.inj h
        cases element.member <;> rfl
      · simp [fail] at h
  | «open» source tag =>
    obtain ⟨member, -, hnext⟩ := bind_eq_ok.mp h
    obtain rfl := Except.ok.inj hnext
    exact line_openElement (progress.pass source) tag member
  | unfinished kind => simp [step, fail] at h

/-- **Behind one more token is the text with the token**: it leaves open what the progress has
open. -/
theorem LeavesOpen.step {front text rest : Text} {token : Token} {progress next : Progress}
    (h : LeavesOpen memberElement front (progress.opened.map Opened.name))
    (hbegins : Begins text token rest) (hstep : progress.step memberElement token = .ok next) :
    LeavesOpen memberElement (front ++ token.source) (next.opened.map Opened.name) := by
  cases hbegins with
  | @character c _ plain =>
    obtain rfl := Except.ok.inj hstep
    have hdocument : Document memberElement ([c] ++ []) [] :=
      .text (by simpa using Ne.symm plain) .nil
    exact h.append hdocument
  | @skipped inner _ construct =>
    obtain rfl := Except.ok.inj hstep
    have hdocument : Document memberElement ('<' :: inner ++ []) [] := .skipped construct .nil
    rw [List.append_nil] at hdocument
    exact h.append hdocument
  | @close ending name _ tag =>
    obtain ⟨element, hopened, rfl⟩ := Progress.exists_of_close hstep
    rw [hopened, List.map_cons] at h
    exact h.close tag
  | @«open» content _ is_content head =>
    obtain ⟨member, hstart, hdocuments, rfl⟩ := Progress.exists_of_open is_content head hstep
    cases hempty : (Tag.ofContent content).isEmpty with
    | true =>
      rw [Progress.openElement_of_isEmpty hempty, Progress.opened_after]
      exact h.append (.empty hstart hempty hdocuments .nil)
    | false =>
      obtain ⟨place, hopened⟩ := Progress.opened_openElement hempty
        (progress.pass ('<' :: content ++ ['>'])) member
      rw [hopened, List.map_cons]
      have helement := LeavesOpen.element h hstart hempty hdocuments .nil
      rwa [List.append_assoc] at helement

/-- **Behind one more token is the text with the token**, on its last line. -/
theorem Reached.step {front text rest : Text} {token : Token} {progress next : Progress}
    (h : Reached memberElement front progress) (hbegins : Begins text token rest)
    (hstep : progress.step memberElement token = .ok next) :
    Reached memberElement (front ++ token.source) next where
  leaves_open := h.leaves_open.step hbegins hstep
  line_eq := by
    rw [Progress.line_of_step hstep, h.line_eq, Nat.add_assoc, Text.lineFeeds, Text.lineFeeds,
      Text.lineFeeds, List.count_append]

/-- What is at fault at the beginning of a text is a construct. -/
theorem Faulty.exists_construct {names : List Text} {token : Token} {reason : SyntaxReason}
    (h : Faulty memberElement names token reason) {text rest : Text}
    (hbegins : Begins text token rest) :
    ∃ inner, text = '<' :: inner ∧ construct inner = token := by
  rcases hbegins.character_or_construct with ⟨c, -, -, rfl⟩ | hconstruct
  · cases h
  · exact hconstruct

/-- **A fault behind some text is that of the whole text.**

**Proof sketch.** By induction on the tokens that are left. One that cannot be passed over is a
construct at fault, and behind the last one the innermost open element is not closed. -/
theorem located_of_run {front text : Text} {tokens : List Token} (h : Lexes text tokens)
    {progress : Progress} (hfront : Reached memberElement front progress) {fault : SyntaxFault}
    (hrun : tokens.foldlM (Progress.step memberElement) progress >>= Progress.finish =
      .error fault) :
    Located memberElement (front ++ text) fault := by
  obtain ⟨line, reason⟩ := fault
  induction h generalizing front progress with
  | nil =>
    have hfinish : progress.finish = .error ⟨line, reason⟩ := hrun
    have hopen := hfront.leaves_open
    rw [Progress.finish] at hfinish
    rw [List.append_nil]
    cases hopened : progress.opened with
    | nil => simp [hopened] at hfinish
    | cons element others =>
      simp only [hopened] at hfinish
      obtain ⟨rfl, rfl⟩ := Progress.fail_eq_error_iff.mp hfinish
      rw [hopened, List.map_cons] at hopen
      rw [hfront.line_eq]
      exact .unclosed hopen
  | @unfinished text kind no_end =>
    have hfail : (progress.fail (.unfinished kind) : Except SyntaxFault (List MemberBlock)) =
        .error ⟨line, reason⟩ := hrun
    obtain ⟨rfl, rfl⟩ := Progress.fail_eq_error_iff.mp hfail
    rw [hfront.line_eq]
    refine .atConstruct rfl hfront.leaves_open ?_
    rw [no_end]
    exact .unfinished kind
  | @cons text rest token following first _ ih =>
    rw [List.foldlM_cons] at hrun
    cases hstep : progress.step memberElement token with
    | error fault =>
      rw [hstep] at hrun
      obtain rfl : fault = ⟨line, reason⟩ := Except.error.inj hrun
      obtain ⟨rfl, hfaulty⟩ := Progress.step_eq_error_iff.mp hstep
      obtain ⟨inner, rfl, rfl⟩ := hfaulty.exists_construct first
      rw [hfront.line_eq]
      exact .atConstruct rfl hfront.leaves_open hfaulty
    | ok next =>
      rw [hstep] at hrun
      have hlocated := ih (hfront.step first hstep) hrun
      rwa [List.append_assoc, ← first.eq_append] at hlocated

/-- A text is not scanned because of its fault. -/
theorem Located.scan_eq {text : Text} {fault : SyntaxFault}
    (h : Located memberElement text fault) : scan memberElement text = .error fault := by
  cases h with
  | @unclosed name outer leaves_open =>
    obtain ⟨progress, hrun, hnames, hline⟩ := leaves_open.exists_run
    have hwhole : Progress.run memberElement {} text = .ok progress := by
      have hend := hrun []
      rwa [List.append_nil] at hend
    obtain ⟨element, others, hopened, hname, -⟩ := List.map_eq_cons_iff.mp hnames
    rw [scan_eq_run, hwhole, ← hline, ← hname]
    show progress.finish = _
    rw [Progress.finish, hopened]
    rfl
  | @atConstruct front rest names reason text_eq leaves_open faulty =>
    obtain ⟨progress, hrun, hnames, hline⟩ := leaves_open.exists_run
    obtain ⟨following, htokens⟩ := exists_tokens_construct rest
    have hstep : progress.step memberElement (construct rest) =
        .error ⟨1 + Text.lineFeeds front, reason⟩ :=
      Progress.step_eq_error_iff.mpr ⟨hline.symm, hnames.symm ▸ faulty⟩
    rw [scan_eq_run, text_eq, hrun, Progress.run, htokens, List.foldlM_cons, hstep]
    rfl

/-- **The fault found is that of the text.** -/
theorem scan_eq_error_iff {text : Text} {fault : SyntaxFault} :
    scan memberElement text = .error fault ↔ Located memberElement text fault := by
  refine ⟨fun h => ?_, Located.scan_eq⟩
  have hstart : Reached memberElement [] {} := ⟨.document .nil, rfl⟩
  exact located_of_run (lexes_tokens text) hstart h

/-! ### Promising beginnings -/

/-- A text that is scanned, or is not for the only reason that an element is open at its end. -/
def Promising (memberElement text : Text) : Prop :=
  (∃ members, scan memberElement text = .ok members) ∨
    ∃ line name, scan memberElement text = .error ⟨line, .unclosed name⟩

/-- **The promising texts are the documents but for open elements.** -/
theorem promising_iff {text : Text} :
    Promising memberElement text ↔ ∃ names, LeavesOpen memberElement text names := by
  constructor
  · rintro (⟨members, hscan⟩ | ⟨line, name, hscan⟩)
    · exact ⟨[], .document (document_of_scan hscan)⟩
    · cases scan_eq_error_iff.mp hscan with
      | unclosed leaves_open => exact ⟨_, leaves_open⟩
      | atConstruct _ _ faulty => exact absurd rfl (faulty.ne_unclosed name)
  · rintro ⟨names, hopen⟩
    cases names with
    | nil =>
      cases hopen with
      | document document => exact .inl ⟨_, document.scan_eq⟩
    | cons name outer => exact .inr ⟨_, name, (Located.unclosed hopen).scan_eq⟩

/-- A text with a construct at fault is not promising. -/
theorem not_promising_of_faulty {front rest : Text} {names : List Text} {reason : SyntaxReason}
    (hopen : LeavesOpen memberElement front names)
    (hfaulty : Faulty memberElement names (construct rest) reason) :
    ¬ Promising memberElement (front ++ '<' :: rest) := by
  have hscan := (Located.atConstruct rfl hopen hfaulty).scan_eq
  rintro (⟨members, hmembers⟩ | ⟨line, name, hname⟩)
  · exact absurd (hscan.symm.trans hmembers) nofun
  · have hreason := Except.error.inj (hscan.symm.trans hname)
    exact hfaulty.ne_unclosed name (congrArg SyntaxFault.reason hreason)

/-- **No beginning of a text that goes beyond the start of a construct at fault is promising.**

**Proof sketch.** The construct is at fault also where the beginning cuts it short. -/
theorem Promising.length_le {front rest start : Text} {names : List Text} {reason : SyntaxReason}
    (h : Promising memberElement start) (hstart : start <+: front ++ '<' :: rest)
    (hopen : LeavesOpen memberElement front names)
    (hfaulty : Faulty memberElement names (construct rest) reason) :
    start.length ≤ front.length := by
  rcases List.prefix_or_prefix_of_prefix hstart (List.prefix_append front ('<' :: rest)) with
    hbefore | ⟨beyond, rfl⟩
  · exact hbefore.length_le
  · cases beyond with
    | nil => simp
    | cons c cut =>
      have hbeyond := (List.prefix_append_right_inj front).mp hstart
      obtain ⟨rfl, hcut⟩ := List.cons_prefix_cons.mp hbeyond
      obtain ⟨other, hother⟩ := hfaulty.exists_of_isPrefix hcut
      exact absurd h (not_promising_of_faulty hopen hother)

/-! ### The line reported -/

/-- **Faults are located exactly.** The line reported is that of the end of the longest beginning of
the text that is promising. When this is the whole text, the innermost element that it leaves open
is reported. Otherwise it ends right before the construct that is reported, which is at fault inside
the elements open there. -/
theorem scan_error_located {text : Text} {fault : SyntaxFault}
    (h : scan memberElement text = .error fault) :
    ∃ front, front <+: text ∧ Promising memberElement front ∧
      (∀ start, start <+: text → Promising memberElement start → start.length ≤ front.length) ∧
      fault.line = 1 + Text.lineFeeds front ∧
      (front = text → ∃ name outer, fault.reason = .unclosed name ∧
        fault.reason.message = "unclosed element <".toList ++ name ++ ">".toList ∧
        LeavesOpen memberElement text (name :: outer)) ∧
      (front ≠ text → ∃ rest names, text = front ++ '<' :: rest ∧
        LeavesOpen memberElement front names ∧
        Faulty memberElement names (construct rest) fault.reason) := by
  cases scan_eq_error_iff.mp h with
  | @unclosed name outer leaves_open =>
    refine ⟨text, List.prefix_rfl, promising_iff.mpr ⟨_, leaves_open⟩,
      fun start hstart _ => hstart.length_le, rfl,
      fun _ => ⟨name, outer, rfl, rfl, leaves_open⟩, fun hne => absurd rfl hne⟩
  | @atConstruct front rest names reason text_eq leaves_open faulty =>
    subst text_eq
    refine ⟨front, List.prefix_append front _, promising_iff.mpr ⟨names, leaves_open⟩,
      fun start hstart hpromising => hpromising.length_le hstart leaves_open faulty, rfl,
      fun hwhole => ?_, fun _ => ⟨rest, names, rfl, leaves_open, faulty⟩⟩
    exact absurd hwhole (by simp)

/-- A member that is closed under another name, on the third line. -/
def crossedTags : Text :=
  "<d>\n<m name='A'>\n</s>\n</d>".toList

set_option maxRecDepth 4000 in
/-- The longest promising beginning ends on the third line, in front of the end tag that is at fault
inside the two open elements. -/
theorem scan_error_located_crossedTags :
    scan ['m'] crossedTags = .error ⟨3, .mismatchedClose ['s'] ['m']⟩ ∧
      ∃ front, front <+: crossedTags ∧ Promising ['m'] front ∧
        (∀ start, start <+: crossedTags → Promising ['m'] start → start.length ≤ front.length) ∧
        3 = 1 + Text.lineFeeds front := by
  have hscan : scan ['m'] crossedTags = .error ⟨3, .mismatchedClose ['s'] ['m']⟩ := rfl
  obtain ⟨front, hfront, hpromising, hlongest, hline, -⟩ := scan_error_located hscan
  exact ⟨hscan, front, hfront, hpromising, hlongest, hline⟩

end Markup

end SymbolDocs
