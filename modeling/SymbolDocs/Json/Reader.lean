import SymbolDocs.Json.Basic
set_option autoImplicit false

/-!
# Reading JSON texts

A text is read as one value and the text that follows it. Blanks are the space, the tab, the line
feed and the carriage return.

## Main definitions

* `Json.readString` — the rest of a string literal after its opening quote.
* `Json.readNumber` — a number literal.
* `Json.readValue` — a value, read with some fuel.
* `Json.read` — a value, read from the start of a text.

## Design

The reader never fails: where the text stops being JSON it puts a `Json.broken` for a value that is
missing or not finished, a `Json.keyless` for such a key and a `Json.unclosed` behind a value, and
nothing of the text follows. In an object the last two stand under an empty name. Each call uses up
one unit of fuel, and of two calls one inside the other at least one goes on behind a character, so
that twice the length of the text is enough.
-/

namespace SymbolDocs

namespace Json

/-! ### Strings -/

/-- What reading a string literal gives: its text, the first fault met by one who needs that text,
and what follows the closing quote or the fault met in any case. -/
structure StringReading where
  /-- The text the literal stands for. -/
  value : Text
  /-- The first fault met by one who needs the text. -/
  needed : Option TextFault
  /-- What follows the closing quote. -/
  ending : Except TextFault Text

/-- The value of a hexadecimal digit. -/
def hexValue? (c : Char) : Option Nat :=
  if c.isDigit then some (c.toNat - '0'.toNat)
  else if 'a' ≤ c && c ≤ 'f' then some (c.toNat - 'a'.toNat + 10)
  else if 'A' ≤ c && c ≤ 'F' then some (c.toNat - 'A'.toNat + 10)
  else none

/-- The number written with four hexadecimal digits. -/
def hexFour? (a b c d : Char) : Option Nat := do
  let a ← hexValue? a
  let b ← hexValue? b
  let c ← hexValue? c
  let d ← hexValue? d
  some (((a * 16 + b) * 16 + c) * 16 + d)

/-- The character a letter stands for after a backslash. -/
def escaped? (c : Char) : Option Char :=
  match c with
  | '"' => some '"'
  | '\\' => some '\\'
  | '/' => some '/'
  | 'b' => some '\x08'
  | 'f' => some '\x0c'
  | 'n' => some '\n'
  | 'r' => some '\r'
  | 't' => some '\t'
  | _ => none

/-- The fault of a text that should begin with four hexadecimal digits and does not: it ends too
early when it has less than four bytes. -/
def hexFault (text : Text) : TextFault :=
  if (text.take 4).foldl (fun n c => n + c.utf8Size) 0 < 4 then .ended else .malformed

/-- The fault of the text after a leading surrogate that no trailing surrogate follows. -/
def pairFault : Text → TextFault
  | [] => .ended
  | ['\\'] => .ended
  | '\\' :: 'u' :: text => hexFault text
  | _ => .malformed

/-- Whether a number is a leading surrogate. -/
def isLeading (n : Nat) : Bool :=
  0xD800 ≤ n && n < 0xDC00

/-- Whether a number is a trailing surrogate. -/
def isTrailing (n : Nat) : Bool :=
  0xDC00 ≤ n && n < 0xE000

/-- The character of a pair of surrogates. -/
def pairChar (leading trailing : Nat) : Char :=
  Char.ofNat ((leading - 0xD800) * 0x400 + (trailing - 0xDC00) + 0x10000)

/-- What a backslash begins, read from the text after it. -/
inductive Escape where
  /-- A character, written with some characters after the backslash. -/
  | char (value : Char) (length : Nat)
  /-- A surrogate without its partner, and the fault met by one who needs the text. -/
  | lone (fault : TextFault)
  /-- Nothing that can follow a backslash. -/
  | fault (fault : TextFault)

/-- What the trailing surrogate after a leading one makes of it. -/
def pairedEscape (leading : Nat) (text : Text) : Escape :=
  match text with
  | '\\' :: 'u' :: a :: b :: c :: d :: _ =>
    match hexFour? a b c d with
    | some n => if isTrailing n then .char (pairChar leading n) 11 else .lone .malformed
    | none => .lone .malformed
  | _ => .lone (pairFault text)

/-- What the text after a backslash begins with. -/
def escapeAt (text : Text) : Escape :=
  match text with
  | [] => .fault .ended
  | 'u' :: digits =>
    match digits with
    | a :: b :: c :: d :: more =>
      match hexFour? a b c d with
      | none => .fault (hexFault digits)
      | some n =>
        if isLeading n then pairedEscape n more
        else if isTrailing n then .lone .malformed
        else .char (Char.ofNat n) 5
    | _ => .fault (hexFault digits)
  | c :: _ =>
    match escaped? c with
    | some value => .char value 1
    | none => .fault .malformed

/-- The rest of a string literal after its opening quote. `done` holds the characters read so far in
reverse, `needed` the first fault met by one who needs the text; the number counts the characters
still to be skipped of an escape. -/
def readString (done : Text) (needed : Option TextFault) : Nat → Text → StringReading
  | _, [] => ⟨done.reverse, needed, .error .ended⟩
  | skipped + 1, _ :: rest => readString done needed skipped rest
  | 0, c :: rest =>
    if c = '"' then ⟨done.reverse, needed, .ok rest⟩
    else if c = '\\' then
      match escapeAt rest with
      | .char value length => readString (value :: done) needed length rest
      | .lone fault => readString done (needed <|> some fault) 5 rest
      | .fault fault => ⟨done.reverse, needed, .error fault⟩
    else if c.toNat < 0x20 then ⟨done.reverse, needed, .error .malformed⟩
    else readString (c :: done) needed 0 rest

/-- The value of a string literal, and what follows it. -/
def StringReading.outcome (reading : StringReading) : Json × Text :=
  match reading.ending, reading.needed with
  | .ok rest, none => (.string reading.value, rest)
  | .ok rest, some _ => (.valueless, rest)
  | .error fault, needed => (.broken (needed.getD fault) fault, [])

/-! ### Numbers and words -/

/-- A place where a character cannot stand. -/
def malformedHere : Json × Text :=
  (.broken .malformed .malformed, [])

/-- A place where a digit is missing before the given text. Where the value is needed the end of
the text is told apart. -/
def missingDigit (rest : Text) : Json × Text :=
  (.broken (if rest.isEmpty then .cut else .malformed) .malformed, [])

/-- The value of a number literal, and what follows it. -/
def numberOutcome (literal : NumberLiteral) (rest : Text) : Json × Text :=
  match literal.value? with
  | some value => (.number value, rest)
  | none => (.valueless, rest)

/-- The exponent of a number literal, if there is one, and what follows the literal. -/
def readExponent (literal : NumberLiteral) (text : Text) : Json × Text :=
  let read (rest : Text) : Json × Text :=
    let (negative, rest) :=
      match rest with
      | '+' :: rest => (false, rest)
      | '-' :: rest => (true, rest)
      | rest => (false, rest)
    let digits := rest.takeWhile Char.isDigit
    let after := rest.dropWhile Char.isDigit
    if digits.isEmpty then missingDigit after
    else numberOutcome { literal with exponent := some (negative, digits) } after
  match text with
  | 'e' :: rest => read rest
  | 'E' :: rest => read rest
  | rest => numberOutcome literal rest

/-- The fraction and the exponent of a number literal, if there are any, and what follows it. -/
def readFraction (literal : NumberLiteral) (text : Text) : Json × Text :=
  match text with
  | '.' :: rest =>
    let digits := rest.takeWhile Char.isDigit
    let after := rest.dropWhile Char.isDigit
    if digits.isEmpty then missingDigit after
    else readExponent { literal with fraction := digits } after
  | rest => readExponent literal rest

/-- A number literal, and what follows it. A leading zero stands alone before the point. -/
def readNumber (text : Text) : Json × Text :=
  let (negative, rest) :=
    match text with
    | '-' :: rest => (true, rest)
    | rest => (false, rest)
  let whole := rest.takeWhile Char.isDigit
  let after := rest.dropWhile Char.isDigit
  match whole with
  | [] => missingDigit after
  | '0' :: _ :: _ => malformedHere
  | digits => readFraction { negative, whole := digits } after

/-- The rest of a word that stands for a value, and what follows it. -/
def readWord (value : Json) : Text → Text → Json × Text
  | [], text => (value, text)
  | _ :: _, [] => (.broken .cut .cut, [])
  | w :: word, c :: text => if w = c then readWord value word text else malformedHere

/-! ### Values -/

/-- Whether a character is a blank between the parts of a value. -/
def isSeparator (c : Char) : Bool :=
  c = ' ' || c = '\t' || c = '\n' || c = '\r'

/-- A text without the blanks it begins with. -/
def skipBlanks (text : Text) : Text :=
  text.dropWhile isSeparator

/-- The fault at a place where a given text cannot go on: its end, or its first character. -/
def faultAt (text : Text) : TextFault :=
  if text.isEmpty then .ended else .malformed

/-- The missing value at a place where a given text cannot go on. -/
def missingAt (text : Text) : Json :=
  .broken (faultAt text) (faultAt text)

/-- The place of a key that is missing or not finished. -/
def brokenKey (fault : TextFault) : Text × Json :=
  ([], .keyless fault (some fault))

/-- The place after a value where the text that follows neither goes on nor ends. -/
def unclosedAt (text : Text) : Json :=
  .unclosed (faultAt text)

mutual

/-- A value, and the text that follows it. -/
def readValue : Nat → Text → Json × Text
  | 0, _ => (.broken .ended .ended, [])
  | fuel + 1, text =>
    match skipBlanks text with
    | [] => (.broken .ended .ended, [])
    | c :: rest =>
      if c = '"' then (readString [] none 0 rest).outcome
      else if c = '[' then
        match skipBlanks rest with
        | ']' :: rest => (.array [], rest)
        | [] => (.array [.broken .ended .ended], [])
        | c :: rest =>
          let (items, rest) := readItems fuel (c :: rest)
          (.array items, rest)
      else if c = '\x7b' then
        match skipBlanks rest with
        | '\x7d' :: rest => (.object [], rest)
        | rest =>
          let (fields, rest) := readFields fuel rest
          (.object fields, rest)
      else if c = 'n' then readWord .null "ull".toList rest
      else if c = 't' then readWord (.boolean true) "rue".toList rest
      else if c = 'f' then readWord (.boolean false) "alse".toList rest
      else if c = '-' || c.isDigit then readNumber (c :: rest)
      else malformedHere

/-- The items of an array from one of them on, and the text that follows the array. -/
def readItems : Nat → Text → List Json × Text
  | 0, _ => ([.broken .ended .ended], [])
  | fuel + 1, text =>
    let (item, rest) := readValue fuel text
    match skipBlanks rest with
    | ']' :: rest => ([item], rest)
    | ',' :: rest =>
      match skipBlanks rest with
      | [] => ([item, .broken .ended .ended], [])
      | c :: rest =>
        if c = ']' then ([item, .broken .malformed .malformed], [])
        else
          let (items, rest) := readItems fuel (c :: rest)
          (item :: items, rest)
    | rest => ([item, unclosedAt rest], [])

/-- The fields of an object from a key on, and the text that follows the object. -/
def readFields : Nat → Text → List (Text × Json) × Text
  | 0, _ => ([brokenKey .ended], [])
  | fuel + 1, text =>
    match text with
    | '"' :: rest =>
      let reading := readString [] none 0 rest
      let (fields, rest) :=
        match reading.ending with
        | .error fault => ([brokenKey fault], [])
        | .ok rest =>
          match skipBlanks rest with
          | ':' :: rest =>
            let (value, rest) := readValue fuel rest
            match skipBlanks rest with
            | '\x7d' :: rest => ([(reading.value, value)], rest)
            | ',' :: rest =>
              let (fields, rest) := readFields fuel (skipBlanks rest)
              ((reading.value, value) :: fields, rest)
            | rest => ([(reading.value, value), ([], unclosedAt rest)], [])
          | rest => ([(reading.value, missingAt rest)], [])
      match reading.needed with
      | none => (fields, rest)
      | some fault => (([], .keyless fault none) :: fields, rest)
    | rest => ([brokenKey (faultAt rest)], [])

end

/-- The value at the start of a text, and the text that follows it. -/
def read (text : Text) : Json × Text :=
  readValue (2 * text.length + 2) text

end Json

end SymbolDocs
