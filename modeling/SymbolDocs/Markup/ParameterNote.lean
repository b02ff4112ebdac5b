import SymbolDocs.Text.Basic
set_option autoImplicit false

/-!
# Notes on parameters

The documentation of a member documents a parameter `p` in an element `<param name="p">…</param>`
that stands on one line.

## Main definitions

* `Markup.parameterNote?` — the element that documents a parameter.

## Design

The first start tag that is followed by an end tag on its line counts; one without is passed over.
The name is taken as it is written between the quotes.
-/

namespace SymbolDocs

namespace Markup

/-- The start tag of the note on a parameter. -/
def noteOpening (parameter : Text) : Text :=
  "<param name=\"".toList ++ parameter ++ "\">".toList

/-- The end tag of a note. -/
def noteClosing : Text :=
  "</param>".toList

/-- The note whose start tag a text begins with, where its end tag follows on the same line. -/
def noteAt? (parameter text : Text) : Option Text := do
  let rest ← Text.skip? (noteOpening parameter) text
  let (body, _) ← Text.cutAt noteClosing (rest.takeWhile (· ≠ '\n'))
  some (noteOpening parameter ++ body ++ noteClosing)

/-- The first note on a parameter in a documentation text. -/
def parameterNote? (parameter : Text) : Text → Option Text
  | [] => none
  | c :: text =>
    match noteAt? parameter (c :: text) with
    | some note => some note
    | none => parameterNote? parameter text

end Markup

end SymbolDocs
