import SymbolDocs.Proofs.Markup.Attributes
import SymbolDocs.Proofs.Markup.Entity
set_option autoImplicit false

/-!
# Written members

Members can be written as documentation: each as a member element whose `name` attribute holds the
encoded name, around the body as it is. What has been written is scanned into the members again.

## Main definitions

* `Markup.writeMembers` — some members, written one after the other.

## Main results

* `Markup.startTag_memberTag`, `Markup.documents_memberTag` — what the start tag of a member says.
* `Markup.document_writeMembers` — written members are a document with these members.

## Design

A body may hold anything that is a document without members. It is not encoded, and so comes back as
it is.
-/

namespace SymbolDocs

namespace Markup

/-- The content of the start tag of a member. -/
def memberTag (element name : Text) : Text :=
  element ++ " name=\"".toList ++ encodeEntities name ++ ['"']

/-- Some members, each written as a member element of some name around its body. -/
def writeMembers (element : Text) : List MemberBlock → Text
  | [] => []
  | member :: rest =>
    '<' :: memberTag element member.name ++ '>' ::
      (member.body ++ '<' :: '/' :: element ++ '>' :: writeMembers element rest)

/-- The attribute that names a written member. -/
def spelledName (name : Text) : SpelledAttribute :=
  .doubleQuoted "name".toList (encodeEntities name) isAttributeName_name
    (not_mem_encodeEntities (by decide) name)

/-- The text behind the element in the start tag of a member is that of its one attribute. -/
theorem source_spelledName (name : Text) :
    [spelledName name].flatMap SpelledAttribute.source ++ [] =
      " name=\"".toList ++ encodeEntities name ++ ['"'] := by
  simp [SpelledAttribute.source, spelledName, SpelledAttribute.doubleQuoted]

/-- **The start tag of a member** has the name of the element and one attribute. -/
theorem startTag_memberTag {element : Text} (h : IsElementName element) (name : Text) :
    StartTag (memberTag element name)
      ⟨element, " name=\"".toList ++ encodeEntities name ++ ['"'], false⟩ := by
  have hstart := startTag_spelledTag h [spelledName name] ⟨[], rfl⟩ false
  rw [spelledTag, source_spelledName] at hstart
  simpa [memberTag] using hstart

/-- **The start tag of a member documents its name**, whatever characters the name holds. -/
theorem documents_memberTag (element name : Text) :
    Documents element ⟨element, " name=\"".toList ++ encodeEntities name ++ ['"'], false⟩
      (some name) := by
  have hnamed := attribute?_spelled element [spelledName name] ⟨[], rfl⟩ false "name".toList
  have his : (spelledName name).name = "name".toList := rfl
  rw [source_spelledName, List.find?_cons_of_pos (by simpa using his)] at hnamed
  exact .member rfl (hnamed.trans (congrArg some (decodeEntities_encodeEntities name)))

/-- **Written members are a document with these members**, where their bodies are documents without
members. -/
theorem document_writeMembers {element : Text} (h : IsElementName element)
    {members : List MemberBlock}
    (hbodies : ∀ member ∈ members, scan element member.body = .ok []) :
    Document element (writeMembers element members) members := by
  induction members with
  | nil => exact .nil
  | cons member rest ih =>
    have hbody : Document element member.body [] :=
      document_of_scan (hbodies member List.mem_cons_self)
    have hrest := ih fun other hother => hbodies other (List.mem_cons_of_mem member hother)
    exact .element (startTag_memberTag h member.name) rfl
      (documents_memberTag element member.name) hbody (endTag_of_isElementName h) hrest

example : writeMembers "m".toList [⟨"A<B>&".toList, "<b/>".toList⟩] =
    "<m name=\"A&lt;B&gt;&amp;\"><b/></m>".toList := by decide

end Markup

end SymbolDocs
