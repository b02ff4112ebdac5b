import SymbolDocs.Markup.Token
set_option autoImplicit false

/-!
# Scanning for documented members

A documentation text is scanned for the elements of a given name, the member elements. Each must
carry a `name` attribute, and its body is the text between its tags as it stands. All elements must
be nested properly; nothing else about them is checked.

## Main definitions

* `Markup.MemberBlock` — a documented member.
* `Markup.SyntaxFault` — where and why a text cannot be scanned.
* `Markup.Progress` — what has been scanned so far.
* `Markup.scan` — the members of a text in the order in which their elements close.

## Design

The text read since the start tag of the innermost open member element is kept in reverse. It is the
body of that member when its element closes, and is then put back behind the text before it, since
members may stand inside members.
-/

namespace SymbolDocs

namespace Markup

/-! ### Results -/

/-- A documented member: the value of its `name` attribute and the body of its element. -/
structure MemberBlock where
  /-- The name. -/
  name : Text
  /-- The body. -/
  body : Text
  deriving DecidableEq, Repr

/-- Why a text cannot be scanned. -/
inductive SyntaxReason where
  /-- A construct has no end. -/
  | unfinished (construct : Construct)
  /-- An end tag where no element is open. -/
  | unexpectedClose (name : Text)
  /-- An end tag of another name than the innermost open element. -/
  | mismatchedClose (name opened : Text)
  /-- A start tag without a name. -/
  | unnamedElement
  /-- A member element without a name attribute. -/
  | unnamedMember (element : Text)
  /-- An element that is not closed. -/
  | unclosed (name : Text)
  deriving DecidableEq, Repr

/-- Where and why a text cannot be scanned. -/
structure SyntaxFault where
  /-- The line of the construct at fault, counted from one. -/
  line : Nat
  /-- The reason. -/
  reason : SyntaxReason
  deriving DecidableEq, Repr

/-- The wording of a construct. -/
def Construct.description : Construct → Text
  | .comment => "comment".toList
  | .characterData => "CDATA section".toList
  | .instruction => "processing instruction".toList
  | .declaration => "declaration".toList
  | .tag => "tag".toList

/-- The wording of a reason. -/
def SyntaxReason.message : SyntaxReason → Text
  | .unfinished construct => "unterminated ".toList ++ construct.description
  | .unexpectedClose name => "unexpected closing tag </".toList ++ name ++ ">".toList
  | .mismatchedClose name opened =>
    "closing tag </".toList ++ name ++ "> does not match <".toList ++ opened ++ ">".toList
  | .unnamedElement => "element without a name".toList
  | .unnamedMember element => "<".toList ++ element ++ "> without a name attribute".toList
  | .unclosed name => "unclosed element <".toList ++ name ++ ">".toList

/-! ### Progress -/

/-- A member whose element is open. -/
structure OpenMember where
  /-- The name of the member. -/
  name : Text
  /-- The text of the enclosing member up to and with the start tag, in reverse. -/
  before : Text
  deriving DecidableEq, Repr

/-- An open element. -/
structure Opened where
  /-- The name of the element. -/
  name : Text
  /-- The member that the element documents. -/
  member : Option OpenMember
  deriving DecidableEq, Repr

/-- What has been scanned so far. -/
structure Progress where
  /-- The line reached. -/
  line : Nat := 1
  /-- The text since the start tag of the innermost open member element, in reverse. -/
  content : Text := []
  /-- The members found, last first. -/
  found : List MemberBlock := []
  /-- The open elements, innermost first. -/
  opened : List Opened := []
  deriving DecidableEq, Repr

namespace Progress

/-- The failure at the line reached. -/
def fail {α : Type} (progress : Progress) (reason : SyntaxReason) : Except SyntaxFault α :=
  .error ⟨progress.line, reason⟩

/-- The progress behind a source that opens and closes nothing. -/
def pass (progress : Progress) (source : Text) : Progress :=
  { progress with
    line := progress.line + Text.lineFeeds source
    content := source.reverse ++ progress.content }

/-- The progress with a member closed: it has been found, and its body is part of the text before
it. -/
def closeMember (progress : Progress) : Option OpenMember → Progress
  | none => progress
  | some member => { progress with
      content := progress.content ++ member.before
      found := ⟨member.name, progress.content.reverse⟩ :: progress.found }

/-- The progress behind an end tag. -/
def close (progress : Progress) (source name : Text) : Except SyntaxFault Progress :=
  match progress.opened with
  | [] => progress.fail (.unexpectedClose name)
  | element :: rest =>
    if element.name = name then
      .ok (({ progress with opened := rest }.closeMember element.member).pass source)
    else progress.fail (.mismatchedClose name element.name)

/-- The name of the member that a start tag documents; none for another element. -/
def memberName (progress : Progress) (memberElement : Text) (tag : Tag) :
    Except SyntaxFault (Option Text) :=
  if tag.name = [] then progress.fail .unnamedElement
  else if tag.name = memberElement then
    match tag.attribute? "name".toList with
    | some name => .ok (some name)
    | none => progress.fail (.unnamedMember tag.name)
  else .ok none

/-- The progress behind the start tag of an element that documents a member or none. -/
def openElement (progress : Progress) (tag : Tag) (member : Option Text) : Progress :=
  match tag.isEmpty, member with
  | true, none => progress
  | true, some name => { progress with found := ⟨name, []⟩ :: progress.found }
  | false, none => { progress with opened := ⟨tag.name, none⟩ :: progress.opened }
  | false, some name => { progress with
      content := []
      opened := ⟨tag.name, some ⟨name, progress.content⟩⟩ :: progress.opened }

/-- The progress behind a start tag. -/
def «open» (progress : Progress) (memberElement source : Text) (tag : Tag) :
    Except SyntaxFault Progress := do
  let member ← progress.memberName memberElement tag
  .ok ((progress.pass source).openElement tag member)

/-- The progress behind a token. -/
def step (memberElement : Text) (progress : Progress) : Token → Except SyntaxFault Progress
  | .character c => .ok (progress.pass [c])
  | .skipped source => .ok (progress.pass source)
  | .close source name => progress.close source name
  | .open source tag => progress.open memberElement source tag
  | .unfinished construct => progress.fail (.unfinished construct)

/-- The members found by the end of a text, where no element may be open. -/
def finish (progress : Progress) : Except SyntaxFault (List MemberBlock) :=
  match progress.opened with
  | [] => .ok progress.found.reverse
  | element :: _ => progress.fail (.unclosed element.name)

end Progress

/-- The members of a text in the order in which their elements close. -/
def scan (memberElement text : Text) : Except SyntaxFault (List MemberBlock) := do
  let progress ← (tokens text).foldlM (Progress.step memberElement) {}
  progress.finish

end Markup

end SymbolDocs
