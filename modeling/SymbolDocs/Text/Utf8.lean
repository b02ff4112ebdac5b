import SymbolDocs.Text.Basic
set_option autoImplicit false

/-!
# Texts and bytes

The UTF-8 form of a text, written character by character and read byte by byte.

## Main definitions

* `Text.Utf8.encode` — the bytes of a text.
* `Text.Utf8.Fault` — where bytes stop being UTF-8.
* `Text.Utf8.decode` — the text of some bytes, if they are UTF-8.
* `Text.Utf8.lossy` — the text of some bytes, with a replacement for what is not UTF-8.

## Design

A leading byte says how many bytes follow and in what range the first of them lies; all others lie
between `0x80` and `0xBF`. A sequence is refused at the first byte out of range. What is reported,
or replaced by a single character, is the longest beginning of a sequence that could still have been
completed, at least one byte. The byte out of range is then read again as the first of a sequence.
-/

namespace SymbolDocs

namespace Text

namespace Utf8

/-! ### Writing -/

/-- The bytes of a character: the leading byte, and six bits in each byte that follows. -/
def encodeChar (c : Char) : List UInt8 :=
  let n := c.toNat
  if n < 0x80 then [n.toUInt8]
  else if n < 0x800 then [(0xC0 + n / 64).toUInt8, (0x80 + n % 64).toUInt8]
  else if n < 0x10000 then
    [(0xE0 + n / 4096).toUInt8, (0x80 + n / 64 % 64).toUInt8, (0x80 + n % 64).toUInt8]
  else
    [(0xF0 + n / 262144).toUInt8, (0x80 + n / 4096 % 64).toUInt8, (0x80 + n / 64 % 64).toUInt8,
      (0x80 + n % 64).toUInt8]

/-- The bytes of a text. -/
def encode (text : Text) : List UInt8 :=
  text.flatMap encodeChar

/-! ### Reading -/

/-- Where bytes stop being UTF-8. -/
structure Fault where
  /-- The text of the bytes before. -/
  before : Text
  /-- The number of bytes before. -/
  index : Nat
  /-- The number of bytes at fault; none where the bytes end within a sequence. -/
  length : Option Nat
  deriving DecidableEq, Repr

/-- A sequence whose last bytes are still to come. -/
structure Pending where
  /-- The number of bytes still to come, at least one. -/
  missing : Nat
  /-- The least value of the next byte. -/
  low : Nat
  /-- The greatest value of the next byte. -/
  high : Nat
  /-- The bits read so far. -/
  bits : Nat
  /-- The number of bytes read so far. -/
  length : Nat
  deriving DecidableEq, Repr

/-- The sequence a leading byte begins. -/
def leading? (byte : Nat) : Option Pending :=
  if 0xC2 ≤ byte && byte ≤ 0xDF then some ⟨1, 0x80, 0xBF, byte - 0xC0, 1⟩
  else if byte = 0xE0 then some ⟨2, 0xA0, 0xBF, 0, 1⟩
  else if byte = 0xED then some ⟨2, 0x80, 0x9F, 0xD, 1⟩
  else if 0xE1 ≤ byte && byte ≤ 0xEF then some ⟨2, 0x80, 0xBF, byte - 0xE0, 1⟩
  else if byte = 0xF0 then some ⟨3, 0x90, 0xBF, 0, 1⟩
  else if 0xF1 ≤ byte && byte ≤ 0xF3 then some ⟨3, 0x80, 0xBF, byte - 0xF0, 1⟩
  else if byte = 0xF4 then some ⟨3, 0x80, 0x8F, 4, 1⟩
  else none

/-- The text of some bytes behind a number of bytes whose text, in reverse, is `done`. -/
def decodeFrom (done : Text) (index : Nat) (pending : Option Pending) :
    List UInt8 → Except Fault Text
  | [] =>
    match pending with
    | none => .ok done.reverse
    | some _ => .error ⟨done.reverse, index, none⟩
  | byte :: bytes =>
    let byte := byte.toNat
    match pending with
    | none =>
      if byte < 0x80 then decodeFrom (Char.ofNat byte :: done) (index + 1) none bytes
      else
        match leading? byte with
        | some pending => decodeFrom done index (some pending) bytes
        | none => .error ⟨done.reverse, index, some 1⟩
    | some pending =>
      if pending.low ≤ byte && byte ≤ pending.high then
        let bits := 64 * pending.bits + (byte - 0x80)
        let length := pending.length + 1
        if pending.missing ≤ 1 then
          decodeFrom (Char.ofNat bits :: done) (index + length) none bytes
        else decodeFrom done index (some ⟨pending.missing - 1, 0x80, 0xBF, bits, length⟩) bytes
      else .error ⟨done.reverse, index, some pending.length⟩

/-- The text of some bytes. -/
def decode (bytes : List UInt8) : Except Fault Text :=
  decodeFrom [] 0 none bytes

/-! ### Replacing what is not UTF-8 -/

/-- The character in place of bytes that are not UTF-8. -/
def replacement : Char := '\uFFFD'

/-- What a byte at the start of a sequence adds to the text, and the sequence that it begins. -/
def start (byte : Nat) : Text × Option Pending :=
  if byte < 0x80 then ([Char.ofNat byte], none)
  else
    match leading? byte with
    | some pending => ([], some pending)
    | none => ([replacement], none)

/-- What the next byte of a sequence adds to the text, and the sequence that goes on behind it. A
byte out of range leaves a replacement for the sequence and starts anew. -/
def Pending.next (pending : Pending) (byte : Nat) : Text × Option Pending :=
  if pending.low ≤ byte && byte ≤ pending.high then
    let bits := 64 * pending.bits + (byte - 0x80)
    if pending.missing ≤ 1 then ([Char.ofNat bits], none)
    else ([], some ⟨pending.missing - 1, 0x80, 0xBF, bits, pending.length + 1⟩)
  else (replacement :: (start byte).1, (start byte).2)

/-- The text of some bytes behind those of a sequence, with replacements. -/
def lossyFrom : Option Pending → List UInt8 → Text
  | none, [] => []
  | some _, [] => [replacement]
  | none, byte :: bytes => (start byte.toNat).1 ++ lossyFrom (start byte.toNat).2 bytes
  | some pending, byte :: bytes =>
    (pending.next byte.toNat).1 ++ lossyFrom (pending.next byte.toNat).2 bytes

/-- The text of some bytes, with a replacement for every sequence that is not UTF-8. -/
def lossy (bytes : List UInt8) : Text :=
  lossyFrom none bytes

end Utf8

end Text

end SymbolDocs
