import SymbolDocs.Text.Digit
set_option autoImplicit false

/-!
# Local functions

A local function that a compiler has lifted out of a method goes by a name such as
`<Outer>g__Inner|0_0`: somewhere in the name stands `g__`, on the same line after at least one
character a bar, decimal digits, an underscore and a decimal digit. Such methods carry no
documentation.

## Main definitions

* `isLocalFunction` — whether a name is that of a local function.
-/

namespace SymbolDocs

namespace LocalFunction

/-- Whether a text begins with the ordinal of a local function: a bar, decimal digits, an underscore
and a decimal digit. -/
def isOrdinal : Text → Bool
  | '|' :: text =>
    match Text.digitRun text with
    | (_ :: _, '_' :: c :: _) => Text.isDigit c
    | _ => false
  | _ => false

/-- Whether an ordinal begins somewhere in a text. -/
def hasOrdinal : Text → Bool
  | [] => false
  | c :: text => isOrdinal (c :: text) || hasOrdinal text

/-- Whether a line is that of a local function. Of several marks `g__` the first one counts, since
an ordinal after a later one also stands after the first. -/
def isLocalLine (line : Text) : Bool :=
  match Text.cutAt "g__".toList line with
  | some (_, _ :: rest) => hasOrdinal rest
  | _ => false

end LocalFunction

/-- Whether a name is that of a local function. -/
def isLocalFunction (name : Text) : Bool :=
  (Text.lines name).any LocalFunction.isLocalLine

end SymbolDocs
