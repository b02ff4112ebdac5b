import SymbolDocs.Markup.Tag
set_option autoImplicit false

/-!
# Tokens of markup

A text is a sequence of characters outside any construct, and of constructs: comments, character
data sections, processing instructions, declarations, end tags and start tags. A construct that does
not end is the last token.

## Main definitions

* `Markup.Token` — the tokens.
* `Markup.Token.source` — the text of a token.
* `Markup.tokens` — the tokens of a text.

## Design

What a construct is, its first characters say. A comment ends with the first `-->` counted from its
`<`, so that `<!-->` is one. A tag ends with the first `>` outside quotes and has no `<` outside
quotes.

Every character outside a construct is a token of its own, so that the tokens of two texts one after
the other are those of the first and those of the second.
-/

namespace SymbolDocs

namespace Markup

/-- The kinds of constructs that may lack their end. -/
inductive Construct where
  /-- A comment. -/
  | comment
  /-- A section of character data. -/
  | characterData
  /-- A processing instruction. -/
  | instruction
  /-- A declaration. -/
  | declaration
  /-- A start tag or an end tag. -/
  | tag
  deriving DecidableEq, Repr

/-- A token. -/
inductive Token where
  /-- A character outside any construct. -/
  | character (c : Char)
  /-- A construct without elements: a comment, a section, an instruction or a declaration. -/
  | skipped (source : Text)
  /-- An end tag. -/
  | close (source name : Text)
  /-- A start tag. -/
  | open (source : Text) (tag : Tag)
  /-- A construct without its end. -/
  | unfinished (construct : Construct)
  deriving DecidableEq, Repr

/-- The text of a token; a construct without its end has none. -/
def Token.source : Token → Text
  | .character c => [c]
  | .skipped source => source
  | .close source _ => source
  | .open source _ => source
  | .unfinished _ => []

/-! ### Constructs -/

/-- The construct that starts with `<` and runs to the first `terminator`, counted from the `<`. -/
def skippedToken (construct : Construct) (terminator text : Text) : Token :=
  match Text.cutAt terminator ('<' :: text) with
  | some (before, _) => .skipped (before ++ terminator)
  | none => .unfinished construct

/-- The content of a tag up to its end, the first `>` outside quotes, where no `<` may stand.
`done` holds the content read so far in reverse, `quote` the quote that is open. -/
def tagContent? (done : Text) (quote : Option Char) : Text → Option Text
  | [] => none
  | c :: text =>
    match quote with
    | some q => tagContent? (c :: done) (if c = q then none else some q) text
    | none =>
      if c = '>' then some done.reverse
      else if c = '<' then none
      else tagContent? (c :: done) (if isQuote c then some c else none) text

/-- The tag whose content begins after the `<`. -/
def tagToken (text : Text) : Token :=
  match tagContent? [] none text with
  | none => .unfinished .tag
  | some content =>
    let source := '<' :: content ++ ['>']
    match content with
    | '/' :: name => .close source (Text.trim Text.isBlank name)
    | _ => .open source (.ofContent content)

/-- The construct whose text begins after a `<`. -/
def construct (text : Text) : Token :=
  if "!--".toList.isPrefixOf text then skippedToken .comment "-->".toList text
  else if "![CDATA[".toList.isPrefixOf text then skippedToken .characterData "]]>".toList text
  else if "?".toList.isPrefixOf text then skippedToken .instruction "?>".toList text
  else if "!".toList.isPrefixOf text then skippedToken .declaration ">".toList text
  else tagToken text

/-! ### Token sequences -/

/-- The tokens of a text after some characters, which are skipped. `done` holds those found before,
last first. -/
def tokensFrom (done : List Token) : Nat → Text → List Token
  | _, [] => done.reverse
  | skipped + 1, _ :: text => tokensFrom done skipped text
  | 0, c :: text =>
    if c = '<' then
      match construct text with
      | .unfinished kind => (.unfinished kind :: done).reverse
      | token => tokensFrom (token :: done) (token.source.length - 1) text
    else tokensFrom (.character c :: done) 0 text

/-- The tokens of a text. -/
def tokens (text : Text) : List Token :=
  tokensFrom [] 0 text

end Markup

end SymbolDocs
