import SymbolDocs.Json.Reader
import SymbolDocs.Proofs.Text.Reading
set_option autoImplicit false

/-!
# Reading literals back

A string is read back from its literal whatever follows the closing quote. An integer of 64 bits is
read back from its digits where what follows does not go on with the literal.

## Main definitions

* `Json.EndsNumber` — a text that no number literal goes on with.
* `JsonNumber.IsWord` — the integers of 64 bits, signed or not.

## Main results

* `Json.readString_escapeChar` — an escaped character is read as the character.
* `Json.readString_quote` — a string is read back from its literal.
* `Json.readNumber_render` — an integer is read back from its literal.
-/

namespace SymbolDocs

/-! ### Digits -/

namespace Text

/-- A number above zero does not begin with a zero. -/
theorem head?_ofNat_ne_zero {n : Nat} (hn : 0 < n) : (ofNat n).head? ≠ some '0' := by
  induction n using Nat.strongRecOn with
  | _ n ih =>
    unfold ofNat at ih ⊢
    rw [Nat.toDigits_eq_if (by decide)]
    split
    case isTrue hlt =>
      have hdigit : ∀ d < 10, 0 < d → [Nat.digitChar d].head? ≠ some '0' := by decide
      exact hdigit n hlt hn
    case isFalse hle =>
      have hshorter := ih (n / 10) (by omega) (by omega)
      rwa [List.head?_append, Option.or_of_isSome (List.isSome_head?.mpr Nat.toDigits_ne_nil)]

/-- A number that begins with a zero has no other digit. -/
theorem ofNat_eq_zero_cons {n : Nat} {digits : Text} (h : ofNat n = '0' :: digits) :
    digits = [] := by
  obtain rfl | hn := Nat.eq_zero_or_pos n
  · exact (List.cons.inj h).2.symm
  · exact absurd (by rw [h]; rfl) (head?_ofNat_ne_zero hn)

end Text

namespace NumberLiteral

/-- The digits of a number have the number as their value. -/
theorem digitsValue_ofNat (n : Nat) : digitsValue (Text.ofNat n) = n :=
  Nat.ofDigitChars_ten_toDigits

/-- The digits of a number below `2 ^ 64` stand for it. -/
theorem value?_ofNat {n : Nat} (h : n < UInt64.size) :
    value? { negative := false, whole := Text.ofNat n } = some (.integer n) := by
  simp [value?, digitsValue_ofNat, h]

/-- Behind a minus sign, the digits of a number up to `2 ^ 63` stand for its negative. -/
theorem value?_negative_ofNat {n : Nat} (hpos : 0 < n) (h : n ≤ Nat.pow 2 63) :
    value? { negative := true, whole := Text.ofNat n } = some (.integer (-n)) := by
  simp only [value?, digitsValue_ofNat, if_true, if_pos (And.intro hpos h)]

end NumberLiteral

namespace JsonNumber

/-- The integers of 64 bits, signed or not. -/
def IsWord : JsonNumber → Prop
  | .integer (.ofNat n) => n < UInt64.size
  | .integer (.negSucc n) => n + 1 ≤ Nat.pow 2 63
  | .real _ => False

/-- A written integer begins with a sign or a digit. -/
theorem IsWord.exists_cons {value : JsonNumber} (h : value.IsWord) :
    ∃ c text, value.render = c :: text ∧ (c = '-' ∨ c.isDigit = true) := by
  cases value with
  | real x => exact h.elim
  | integer n =>
    cases n with
    | ofNat n =>
      obtain ⟨c, text, htext⟩ := List.exists_cons_of_ne_nil (Text.ofNat_ne_nil n)
      exact ⟨c, text, htext, .inr (Text.isDigit_of_mem_ofNat (htext ▸ List.mem_cons_self))⟩
    | negSucc n => exact ⟨'-', Text.ofNat (n + 1), rfl, .inl rfl⟩

end JsonNumber

namespace Json

/-! ### Strings -/

/-- The escape of a control character is read as its number. -/
theorem hexFour?_hexDigit {n : Nat} (h : n < 0x20) :
    hexFour? '0' '0' (hexDigit (n / 16)) (hexDigit n) = some n := by
  have hall : ∀ n < 0x20, hexFour? '0' '0' (hexDigit (n / 16)) (hexDigit n) = some n := by decide
  exact hall n h

/-- An escaped control character is read as the character. -/
theorem escapeAt_hexDigit {c : Char} (h : c.toNat < 0x20) (rest : Text) :
    escapeAt ('u' :: '0' :: '0' :: hexDigit (c.toNat / 16) :: hexDigit c.toNat :: rest) =
      .char c 5 := by
  have hleading : isLeading c.toNat = false := by
    simp only [isLeading, Bool.and_eq_false_iff, decide_eq_false_iff_not]
    omega
  have htrailing : isTrailing c.toNat = false := by
    simp only [isTrailing, Bool.and_eq_false_iff, decide_eq_false_iff_not]
    omega
  simp only [escapeAt, hexFour?_hexDigit h, hleading, htrailing, Char.ofNat_toNat]
  rfl

/-- **An escaped character is read as the character.** -/
theorem readString_escapeChar (c : Char) (done rest : Text) :
    readString done none 0 (escapeChar c ++ rest) = readString (c :: done) none 0 rest := by
  unfold escapeChar
  -- the characters with a letter of their own
  iterate 7
    split
    case isTrue h => subst h; rfl
  split
  case isTrue h =>
    have hescape := escapeAt_hexDigit h rest
    simp [readString, hescape]
  case isFalse hquote hbackslash _ _ _ _ _ hcontrol =>
    simp [readString, hquote, hbackslash, hcontrol]

/-- **A string is read back from its literal.** -/
theorem readString_quote (text done rest : Text) :
    readString done none 0 (text.flatMap escapeChar ++ '"' :: rest) =
      ⟨done.reverse ++ text, none, .ok rest⟩ := by
  induction text generalizing done with
  | nil => simp [readString]
  | cons c text ih =>
    rw [List.flatMap_cons, List.append_assoc, readString_escapeChar, ih, List.reverse_cons,
      List.append_assoc, List.singleton_append]

/-! ### Numbers -/

/-- A text that no number literal goes on with. -/
def EndsNumber (rest : Text) : Prop :=
  ∀ c ∈ rest.head?, c.isDigit = false ∧ c ≠ '.' ∧ c ≠ 'e' ∧ c ≠ 'E'

/-- A number ends where the text does. -/
theorem endsNumber_nil : EndsNumber [] :=
  nofun

/-- A comma ends a number, as the end of an array or an object does. -/
theorem endsNumber_cons {c : Char} (h : c ∈ [',', ']', '\x7d']) (rest : Text) :
    EndsNumber (c :: rest) := by
  rintro _ ⟨⟩
  simp only [List.mem_cons, List.not_mem_nil, or_false] at h
  rcases h with rfl | rfl | rfl <;> decide

/-- The digits of a number are all that a text begins with, where the rest does not go on. -/
theorem takeWhile_isDigit_ofNat {rest : Text} (hrest : EndsNumber rest) (n : Nat) :
    (Text.ofNat n ++ rest).takeWhile Char.isDigit = Text.ofNat n ∧
      (Text.ofNat n ++ rest).dropWhile Char.isDigit = rest := by
  have hdigits : ∀ c ∈ Text.ofNat n, c.isDigit = true := fun _ => Text.isDigit_of_mem_ofNat
  rw [List.takeWhile_append_of_pos hdigits, List.dropWhile_append_of_pos hdigits]
  cases rest with
  | nil => simp
  | cons c rest => simp [(hrest c rfl).1]

/-- A literal without fraction and exponent ends where the text does not go on with it. -/
theorem readFraction_of_endsNumber {rest : Text} (hrest : EndsNumber rest)
    (literal : NumberLiteral) : readFraction literal rest = numberOutcome literal rest := by
  cases rest with
  | nil => rfl
  | cons c rest =>
    obtain ⟨-, hpoint, hlower, hupper⟩ := hrest c rfl
    simp [readFraction, readExponent, hpoint, hlower, hupper]

/-- The digits of a number literal and what stands behind them, read behind the sign. -/
def readUnsigned (negative : Bool) (text : Text) : Json × Text :=
  match text.takeWhile Char.isDigit with
  | [] => missingDigit (text.dropWhile Char.isDigit)
  | '0' :: _ :: _ => malformedHere
  | digits => readFraction { negative, whole := digits } (text.dropWhile Char.isDigit)

/-- Behind a minus sign, a negative number is read. -/
theorem readNumber_minus (text : Text) : readNumber ('-' :: text) = readUnsigned true text :=
  rfl

/-- Without one, a number is read that is not negative. -/
theorem readNumber_of_ne_minus {c : Char} (h : c ≠ '-') (text : Text) :
    readNumber (c :: text) = readUnsigned false (c :: text) := by
  unfold readNumber
  split
  · next negative rest hsign =>
    obtain ⟨rfl, rfl⟩ : negative = false ∧ rest = c :: text := by simpa [h, eq_comm] using hsign
    rfl

/-- The digits of a number are read as one literal. -/
theorem readUnsigned_ofNat {rest : Text} (hrest : EndsNumber rest) (negative : Bool) (n : Nat) :
    readUnsigned negative (Text.ofNat n ++ rest) =
      numberOutcome { negative, whole := Text.ofNat n } rest := by
  obtain ⟨htake, hdrop⟩ := takeWhile_isDigit_ofNat hrest n
  rw [readUnsigned, htake, hdrop]
  split
  case h_1 h => exact absurd h (Text.ofNat_ne_nil n)
  case h_2 h => exact nomatch Text.ofNat_eq_zero_cons h
  case h_3 => exact readFraction_of_endsNumber hrest _

/-- **An integer is read back from its literal.** -/
theorem readNumber_render {value : JsonNumber} (h : value.IsWord) {rest : Text}
    (hrest : EndsNumber rest) : readNumber (value.render ++ rest) = (.number value, rest) := by
  cases value with
  | real x => exact h.elim
  | integer n =>
    cases n with
    | ofNat n =>
      obtain ⟨c, digits, hdigits⟩ := List.exists_cons_of_ne_nil (Text.ofNat_ne_nil n)
      have hsign : c ≠ '-' := by
        rintro rfl
        exact absurd (Text.isDigit_of_mem_ofNat (hdigits ▸ List.mem_cons_self)) (by decide)
      have hread := readUnsigned_ofNat hrest false n
      rw [numberOutcome, NumberLiteral.value?_ofNat h, hdigits, List.cons_append] at hread
      rw [JsonNumber.render, hdigits, List.cons_append, readNumber_of_ne_minus hsign]
      exact hread
    | negSucc n =>
      rw [JsonNumber.render, List.cons_append, readNumber_minus, readUnsigned_ofNat hrest,
        numberOutcome, NumberLiteral.value?_negative_ofNat (Nat.succ_pos n) h]
      rfl

end Json

end SymbolDocs
