import SymbolDocs.Markup.Scan
import SymbolDocs.Proofs.Text.FirstOccurrence
set_option autoImplicit false

/-!
# The grammar of documents

What a documentation text is, apart from how it is scanned: a sequence of plain text, skipped
constructs, empty elements, and elements around documents of their own. A derivation yields the
documented members in the order in which their elements end.

## Main definitions

* `Markup.TagContent` — what may stand between the angle brackets of a tag.
* `Markup.Skipped` — comments, sections, instructions and declarations.
* `Markup.StartTag`, `Markup.EndTag` — the parts of the content of a tag.
* `Markup.Documents` — the member that an element documents.
* `Markup.Document` — the documents, with their members.

## Design

No offset, stack or order of attempts is part of the grammar. That a skipped construct ends with the
*first* occurrence of its terminator, and that the brackets of a tag stand outside quotes, are
properties of the construct alone, so that a document is told from its text without looking ahead.
-/

namespace SymbolDocs

namespace Markup

/-! ### Constructs -/

/-- What may stand between the angle brackets of a tag: characters other than angle brackets and
quotes, and quoted values of any characters but their quote. -/
inductive TagContent : Text → Prop where
  /-- No content. -/
  | nil : TagContent []
  /-- A character outside quotes. -/
  | character {c : Char} {content : Text} (not_less : c ≠ '<') (not_greater : c ≠ '>')
      (unquoted : isQuote c = false) (rest : TagContent content) : TagContent (c :: content)
  /-- A quoted value. -/
  | quoted {quote : Char} {value content : Text} (quotes : isQuote quote = true)
      (not_mem : quote ∉ value) (rest : TagContent content) :
      TagContent (quote :: (value ++ quote :: content))

/-- A construct without elements. It ends with the first occurrence of its terminator, counted from
its `<`. -/
inductive Skipped (source : Text) : Prop where
  /-- A comment. -/
  | comment (lead : "<!--".toList <+: source) (ends : Text.EndsFirst "-->".toList source)
  /-- A section of character data. -/
  | characterData (lead : "<![CDATA[".toList <+: source)
      (ends : Text.EndsFirst "]]>".toList source)
  /-- A processing instruction. -/
  | instruction (lead : "<?".toList <+: source) (ends : Text.EndsFirst "?>".toList source)
  /-- A declaration: neither a comment nor a section. -/
  | declaration (lead : "<!".toList <+: source) (not_comment : ¬ "<!--".toList <+: source)
      (not_data : ¬ "<![CDATA[".toList <+: source) (ends : Text.EndsFirst ">".toList source)

/-- The content of a start tag and its parts: the name up to the first blank, the text after it, and
the slash at the end of that of an empty element. -/
structure StartTag (content : Text) (tag : Tag) : Prop where
  /-- The content is that of a tag. -/
  is_content : TagContent content
  /-- The first character begins neither an end tag nor a skipped construct. -/
  head : ∀ c ∈ content.head?, c ∉ ['!', '?', '/']
  /-- The parts make up the content. -/
  parts : content = tag.name ++ tag.rest ++ if tag.isEmpty then ['/'] else []
  /-- The tag of an element that is not empty has no slash at its end. -/
  slash : tag.isEmpty = false → content.getLast? ≠ some '/'
  /-- The name is not empty. -/
  name_ne_nil : tag.name ≠ []
  /-- No blank stands in the name. -/
  name_unblank : ∀ c ∈ tag.name, Text.isBlank c = false
  /-- The text after the name begins with a blank. -/
  rest_blank : ∀ c ∈ tag.rest.head?, Text.isBlank c = true

/-- The content of an end tag behind its slash, and the name that it closes. -/
structure EndTag (content name : Text) : Prop where
  /-- The content is that of a tag. -/
  is_content : TagContent ('/' :: content)
  /-- The name is what stands between the blanks. -/
  name_eq : Text.trim Text.isBlank content = name

/-! ### Documents -/

/-- The member that the element of a tag documents: one named by its attribute when it is a member
element, and none when it is another. -/
inductive Documents (memberElement : Text) (tag : Tag) : Option Text → Prop where
  /-- A member element. -/
  | member {name : Text} (is_member : tag.name = memberElement)
      (named : tag.attribute? "name".toList = some name) : Documents memberElement tag (some name)
  /-- Another element. -/
  | other (not_member : tag.name ≠ memberElement) : Documents memberElement tag none

/-- What an element of some body yields: the member that it documents with that body, if any. -/
def yielded (member : Option Text) (body : Text) : List MemberBlock :=
  member.toList.map fun name => ⟨name, body⟩

/-- The documents and their members, those of an element before the member that it documents. -/
inductive Document (memberElement : Text) : Text → List MemberBlock → Prop where
  /-- The empty document. -/
  | nil : Document memberElement [] []
  /-- Text without tags. -/
  | text {run rest : Text} {members : List MemberBlock} (untagged : '<' ∉ run)
      (following : Document memberElement rest members) :
      Document memberElement (run ++ rest) members
  /-- A skipped construct. -/
  | skipped {source rest : Text} {members : List MemberBlock} (construct : Skipped source)
      (following : Document memberElement rest members) :
      Document memberElement (source ++ rest) members
  /-- An empty element. -/
  | empty {content rest : Text} {tag : Tag} {member : Option Text} {members : List MemberBlock}
      (start : StartTag content tag) (is_empty : tag.isEmpty = true)
      (documents : Documents memberElement tag member)
      (following : Document memberElement rest members) :
      Document memberElement ('<' :: content ++ '>' :: rest) (yielded member [] ++ members)
  /-- An element around a document. -/
  | element {content body ending rest : Text} {tag : Tag} {member : Option Text}
      {inner members : List MemberBlock} (start : StartTag content tag)
      (not_empty : tag.isEmpty = false) (documents : Documents memberElement tag member)
      (inside : Document memberElement body inner) (close : EndTag ending tag.name)
      (following : Document memberElement rest members) :
      Document memberElement
        ('<' :: content ++ '>' :: (body ++ '<' :: '/' :: ending ++ '>' :: rest))
        (inner ++ yielded member body ++ members)

end Markup

end SymbolDocs
