import SymbolDocs.Markup.Entity
import SymbolDocs.Text.Blank
import SymbolDocs.Text.Word
set_option autoImplicit false

/-!
# Tags and attributes

The content of a start tag is a name, attributes after the first blank, and perhaps a final slash
that makes the element empty.

## Main definitions

* `Markup.Tag` — a start tag.
* `Markup.Tag.ofContent` — the tag of some content.
* `Markup.attributes` — the attributes found in a text.
* `Markup.Tag.attribute?` — the decoded value of an attribute.

## Main results

* `Markup.isNameChar_of_isNameStart` — what begins a name may stand in it.
* `Markup.isNameChar_of_isBlank` — no blank stands in a name.

## Design

Attributes are looked for everywhere in the text after the name: at each position an attribute may
begin, also within what is none. An attribute is a name of a letter, an
underscore or a colon and word characters, colons, dots and hyphens, an equals sign perhaps between
blanks, and a quoted value.
-/

namespace SymbolDocs

namespace Markup

/-! ### Attributes -/

/-- Whether a character can begin the name of an attribute. -/
def isNameStart (c : Char) : Bool :=
  c.isAlpha || c = '_' || c = ':'

/-- Whether a character can stand in the name of an attribute. -/
def isNameChar (c : Char) : Bool :=
  Text.isWordChar c || c = ':' || c = '.' || c = '-'

/-- What begins a name may stand in it. -/
theorem isNameChar_of_isNameStart {c : Char} (h : isNameStart c = true) : isNameChar c = true := by
  have hword : ∀ range ∈ Text.wordRanges, range.1 ≤ c.toNat → c.toNat ≤ range.2 →
      isNameChar c = true := by
    intro range hrange hlow hhigh
    have hc : Text.isWordChar c = true := List.any_eq_true.mpr ⟨range, hrange, by simp [*]⟩
    simp [isNameChar, hc]
  simp only [isNameStart, Bool.or_eq_true, decide_eq_true_eq] at h
  rcases h with (halpha | rfl) | rfl
  · rcases (Bool.or_eq_true _ _).mp halpha with hupper | hlower
    · obtain ⟨hlow, hhigh⟩ := of_decide_eq_true hupper
      exact hword (0x41, 0x5A) (by decide) hlow hhigh
    · obtain ⟨hlow, hhigh⟩ := (Bool.and_eq_true _ _).mp hlower
      exact hword (0x61, 0x7A) (by decide) (of_decide_eq_true hlow) (of_decide_eq_true hhigh)
  · decide +kernel
  · decide +kernel

/-- No blank stands in a name. -/
theorem isNameChar_of_isBlank {c : Char} (h : Text.isBlank c = true) : isNameChar c = false := by
  have hmarks : ∀ d : Char, Text.isBlank d = false → c ≠ d := fun d hd heq => by
    simp [← heq, h] at hd
  have hcolon := hmarks ':' (by decide)
  have hdot := hmarks '.' (by decide)
  have hhyphen := hmarks '-' (by decide)
  simp [isNameChar, Text.isWordChar_of_isBlank h, hcolon, hdot, hhyphen]

/-- Whether a character is a quote. -/
def isQuote (c : Char) : Bool :=
  c = '"' || c = '\x27'

/-- An attribute with its raw value. -/
structure Attribute where
  /-- The name. -/
  name : Text
  /-- The value between the quotes. -/
  value : Text
  deriving DecidableEq, Repr

/-- The quoted value a text begins with, and how many characters it takes with its quotes. -/
def quoted? : Text → Option (Text × Nat)
  | [] => none
  | quote :: text =>
    if isQuote quote && text.contains quote then
      let value := text.takeWhile (· ≠ quote)
      some (value, value.length + 2)
    else none

/-- The value after the name of an attribute, and how many characters it takes with the equals sign
and the blanks around it. -/
def assigned? (text : Text) : Option (Text × Nat) :=
  let before := (text.takeWhile Text.isBlank).length
  match text.drop before with
  | '=' :: text =>
    let after := (text.takeWhile Text.isBlank).length
    (quoted? (text.drop after)).map fun (value, length) => (value, before + 1 + after + length)
  | _ => none

/-- The attribute a text begins with, and how many characters it takes. -/
def attributeAt? : Text → Option (Attribute × Nat)
  | [] => none
  | c :: text =>
    if isNameStart c then
      let name := c :: text.takeWhile isNameChar
      (assigned? (text.dropWhile isNameChar)).map fun (value, length) =>
        (⟨name, value⟩, name.length + length)
    else none

/-- How many characters of a text are passed over where no attribute begins. A name without a value
is passed over as a whole, since one that begins further on in it ends at the same place. -/
def passed : Text → Nat
  | [] => 0
  | c :: text => if isNameStart c then (text.takeWhile isNameChar).length + 1 else 1

/-- The attributes found in a text after some characters, which are skipped. `done` holds those
found before, last first. -/
def attributesFrom (done : List Attribute) : Nat → Text → List Attribute
  | _, [] => done.reverse
  | skipped + 1, _ :: text => attributesFrom done skipped text
  | 0, c :: text =>
    match attributeAt? (c :: text) with
    | some (found, length) => attributesFrom (found :: done) (length - 1) text
    | none => attributesFrom done (passed (c :: text) - 1) text

/-- The attributes found in a text, from left to right. -/
def attributes (text : Text) : List Attribute :=
  attributesFrom [] 0 text

/-! ### Tags -/

/-- A start tag. -/
structure Tag where
  /-- The name of the element. -/
  name : Text
  /-- The text after the name. -/
  rest : Text
  /-- Whether the element is empty. -/
  isEmpty : Bool
  deriving DecidableEq, Repr

namespace Tag

/-- The tag of the content between its angle brackets. -/
def ofContent (content : Text) : Tag :=
  let (body, isEmpty) :=
    if content.getLast? = some '/' then (content.dropLast, true) else (content, false)
  { name := body.takeWhile fun c => !Text.isBlank c
    rest := body.dropWhile fun c => !Text.isBlank c
    isEmpty }

/-- The decoded value of the first attribute of a given name. -/
def attribute? (tag : Tag) (name : Text) : Option Text :=
  ((attributes tag.rest).find? fun found => found.name = name).map fun found =>
    decodeEntities found.value

end Tag

end Markup

end SymbolDocs
