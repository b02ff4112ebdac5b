import SymbolDocs.Path
set_option autoImplicit false

/-!
# The bytes of a text

A text is read back from its bytes, so that no two texts have the same ones. Bytes below `0x80`
stand for themselves: they occur in the bytes of a text exactly where their characters do.

## Main definitions

* `Path.IsUtf8` — a path that a text spells.

## Main results

* `Text.Utf8.lossy_encode` — the text of the bytes of a text is the text.
* `Text.Utf8.mem_encode_iff` — the bytes below `0x80` of a text are its characters below `0x80`.
* `Path.IsUtf8.text_inj` — paths that texts spell are told apart by their texts.

## Design

Each character is read with an arbitrary rest behind its bytes, so that the text follows by
induction. The leading byte and those that follow it have a lemma each.
-/

namespace SymbolDocs

namespace Text

namespace Utf8

/-! ### Reading one byte -/

/-- A number below 256 is a byte. -/
theorem toNat_toUInt8 {n : Nat} (h : n < 256) : n.toUInt8.toNat = n :=
  UInt8.toNat_ofNat_of_lt h

/-- A leading byte begins its sequence. -/
theorem lossyFrom_leading {n : Nat} {pending : Pending} (hbyte : n < 256) (hascii : ¬ n < 0x80)
    (hleading : leading? n = some pending) (rest : List UInt8) :
    lossyFrom none (n.toUInt8 :: rest) = lossyFrom (some pending) rest := by
  rw [lossyFrom, toNat_toUInt8 hbyte, start, if_neg hascii, hleading]
  rfl

/-- A byte in range goes on with a sequence of which more is missing. -/
theorem lossyFrom_more {n low high bits missing length : Nat} (hlow : low ≤ n) (hhigh : n ≤ high)
    (hbyte : n < 256) (rest : List UInt8) :
    lossyFrom (some ⟨missing + 2, low, high, bits, length⟩) (n.toUInt8 :: rest) =
      lossyFrom (some ⟨missing + 1, 0x80, 0xBF, 64 * bits + (n - 0x80), length + 1⟩) rest := by
  have hmissing : ¬ missing + 2 ≤ 1 := by omega
  simp only [lossyFrom, toNat_toUInt8 hbyte, Pending.next, hlow, hhigh, hmissing]
  rfl

/-- A byte in range ends a sequence of which it alone is missing. -/
theorem lossyFrom_last {n low high bits length : Nat} (hlow : low ≤ n) (hhigh : n ≤ high)
    (hbyte : n < 256) (rest : List UInt8) :
    lossyFrom (some ⟨1, low, high, bits, length⟩) (n.toUInt8 :: rest) =
      Char.ofNat (64 * bits + (n - 0x80)) :: lossyFrom none rest := by
  simp only [lossyFrom, toNat_toUInt8 hbyte, Pending.next, hlow, hhigh]
  rfl

/-! ### Leading bytes -/

/-- The leading byte of two. -/
theorem leading?_two {n : Nat} (hlow : 0x80 ≤ n) (hhigh : n < 0x800) :
    leading? (0xC0 + n / 64) = some ⟨1, 0x80, 0xBF, n / 64, 1⟩ := by
  have hfirst : 0xC2 ≤ 0xC0 + n / 64 ∧ 0xC0 + n / 64 ≤ 0xDF := by omega
  simp [leading?, hfirst]

/-- The leading byte of three, with a range for the second one that admits every character but no
surrogate. -/
theorem leading?_three {n : Nat} (hvalid : n < 0xD800 ∨ 0xDFFF < n) (hlow : 0x800 ≤ n)
    (hhigh : n < 0x10000) :
    ∃ low high, leading? (0xE0 + n / 4096) = some ⟨2, low, high, n / 4096, 1⟩ ∧
      low ≤ 0x80 + n / 64 % 64 ∧ 0x80 + n / 64 % 64 ≤ high := by
  by_cases hfirst : n / 4096 = 0
  · exact ⟨0xA0, 0xBF, by simp [leading?, hfirst], by omega, by omega⟩
  · by_cases hsurrogates : n / 4096 = 13
    · exact ⟨0x80, 0x9F, by simp [leading?, hsurrogates], by omega, by omega⟩
    · refine ⟨0x80, 0xBF, ?_, by omega, by omega⟩
      have htwo : ¬ 0xE0 + n / 4096 ≤ 0xDF := by omega
      have hrange : 0xE1 ≤ 0xE0 + n / 4096 ∧ 0xE0 + n / 4096 ≤ 0xEF := by omega
      have hed : ¬ 0xE0 + n / 4096 = 0xED := by omega
      simp [leading?, htwo, hfirst, hed, hrange]

/-- The leading byte of four, with a range for the second one that admits every character. -/
theorem leading?_four {n : Nat} (hlow : 0x10000 ≤ n) (hhigh : n < 0x110000) :
    ∃ low high, leading? (0xF0 + n / 262144) = some ⟨3, low, high, n / 262144, 1⟩ ∧
      low ≤ 0x80 + n / 4096 % 64 ∧ 0x80 + n / 4096 % 64 ≤ high := by
  by_cases hfirst : n / 262144 = 0
  · exact ⟨0x90, 0xBF, by simp [leading?, hfirst], by omega, by omega⟩
  · by_cases hlast : n / 262144 = 4
    · exact ⟨0x80, 0x8F, by simp [leading?, hlast], by omega, by omega⟩
    · refine ⟨0x80, 0xBF, ?_, by omega, by omega⟩
      have hthree : ¬ 0xF0 + n / 262144 ≤ 0xEF := by omega
      have htwo : ¬ 0xF0 + n / 262144 ≤ 0xDF := by omega
      have he0 : ¬ 0xF0 + n / 262144 = 0xE0 := by omega
      have hed : ¬ 0xF0 + n / 262144 = 0xED := by omega
      have hrange : 0xF1 ≤ 0xF0 + n / 262144 ∧ 0xF0 + n / 262144 ≤ 0xF3 := by omega
      simp [leading?, hthree, htwo, he0, hed, hfirst, hrange]

/-! ### Reading what has been written -/

/-- **A character is read back from its bytes**, whatever stands behind them.

**Proof sketch.** By the number of bytes: the leading one admits the second, each of the others adds
six bits, and together they make up the number of the character. -/
theorem lossyFrom_encodeChar (c : Char) (rest : List UInt8) :
    lossyFrom none (encodeChar c ++ rest) = c :: lossyFrom none rest := by
  have hvalid : c.toNat < 0xD800 ∨ 0xDFFF < c.toNat ∧ c.toNat < 0x110000 := c.valid
  have hchar : Char.ofNat c.toNat = c := Char.ofNat_toNat c
  generalize hn : c.toNat = n at hvalid hchar
  simp only [encodeChar, hn]
  split
  · next hone =>
    rw [List.singleton_append, lossyFrom, toNat_toUInt8 (by omega), start, if_pos hone, hchar]
    rfl
  · next hone =>
    split
    · next htwo =>
      have hbits : 64 * (n / 64) + (0x80 + n % 64 - 0x80) = n := by omega
      rw [List.cons_append, List.singleton_append,
        lossyFrom_leading (by omega) (by omega) (leading?_two (by omega) htwo),
        lossyFrom_last (by omega) (by omega) (by omega), hbits, hchar]
    · next htwo =>
      split
      · next hthree =>
        obtain ⟨low, high, hleading, hlow, hhigh⟩ :=
          leading?_three (n := n) (by omega) (by omega) hthree
        have hbits : 64 * (64 * (n / 4096) + (0x80 + n / 64 % 64 - 0x80)) +
            (0x80 + n % 64 - 0x80) = n := by omega
        simp only [List.cons_append, List.nil_append]
        rw [lossyFrom_leading (by omega) (by omega) hleading,
          lossyFrom_more hlow hhigh (by omega),
          lossyFrom_last (by omega) (by omega) (by omega), hbits, hchar]
      · next hthree =>
        obtain ⟨low, high, hleading, hlow, hhigh⟩ := leading?_four (n := n) (by omega) (by omega)
        have hbits : 64 * (64 * (64 * (n / 262144) + (0x80 + n / 4096 % 64 - 0x80)) +
            (0x80 + n / 64 % 64 - 0x80)) + (0x80 + n % 64 - 0x80) = n := by omega
        simp only [List.cons_append, List.nil_append]
        rw [lossyFrom_leading (by omega) (by omega) hleading,
          lossyFrom_more hlow hhigh (by omega), lossyFrom_more (by omega) (by omega) (by omega),
          lossyFrom_last (by omega) (by omega) (by omega), hbits, hchar]

/-- **The text of the bytes of a text is the text.** -/
theorem lossy_encode (text : Text) : lossy (encode text) = text := by
  induction text with
  | nil => rfl
  | cons c text ih =>
    rw [lossy, encode, List.flatMap_cons, lossyFrom_encodeChar]
    exact congrArg (c :: ·) ih

example : lossy [97, 0xFF, 0xE2, 0x82, 0x41, 0xF0, 0x9F] = "a\uFFFD\uFFFDA\uFFFD".toList := by
  decide

/-! ### Bytes that stand for themselves -/

/-- A byte from `0x80` on is one. -/
theorem le_toNat_toUInt8 {n : Nat} (hlow : 0x80 ≤ n) (hhigh : n < 256) :
    0x80 ≤ n.toUInt8.toNat := by
  rwa [toNat_toUInt8 hhigh]

/-- All bytes of a character from `0x80` on are at least `0x80`. -/
theorem le_of_mem_encodeChar {c : Char} (h : ¬ c.toNat < 0x80) :
    ∀ byte ∈ encodeChar c, 0x80 ≤ byte.toNat := by
  have hvalid : c.toNat < 0xD800 ∨ 0xDFFF < c.toNat ∧ c.toNat < 0x110000 := c.valid
  rw [encodeChar, if_neg h]
  generalize c.toNat = n at hvalid
  have hlast : 0x80 ≤ (0x80 + n % 64).toUInt8.toNat := le_toNat_toUInt8 (by omega) (by omega)
  have hmiddle : 0x80 ≤ (0x80 + n / 64 % 64).toUInt8.toNat :=
    le_toNat_toUInt8 (by omega) (by omega)
  split
  · have hfirst : 0x80 ≤ (0xC0 + n / 64).toUInt8.toNat := le_toNat_toUInt8 (by omega) (by omega)
    simp only [List.forall_mem_cons]
    exact ⟨hfirst, hlast, nofun⟩
  · split
    · have hfirst : 0x80 ≤ (0xE0 + n / 4096).toUInt8.toNat :=
        le_toNat_toUInt8 (by omega) (by omega)
      simp only [List.forall_mem_cons]
      exact ⟨hfirst, hmiddle, hlast, nofun⟩
    · have hfirst : 0x80 ≤ (0xF0 + n / 262144).toUInt8.toNat :=
        le_toNat_toUInt8 (by omega) (by omega)
      have hsecond : 0x80 ≤ (0x80 + n / 4096 % 64).toUInt8.toNat :=
        le_toNat_toUInt8 (by omega) (by omega)
      simp only [List.forall_mem_cons]
      exact ⟨hfirst, hsecond, hmiddle, hlast, nofun⟩

/-- A byte below `0x80` is among those of a character only if it stands for that one. -/
theorem mem_encodeChar_iff {c d : Char} (h : c.toNat < 0x80) :
    c.toNat.toUInt8 ∈ encodeChar d ↔ c = d := by
  by_cases hd : d.toNat < 0x80
  · rw [encodeChar, if_pos hd, List.mem_singleton, ← UInt8.toNat_inj, toNat_toUInt8 (by omega),
      toNat_toUInt8 (by omega), Char.toNat_inj]
  · constructor
    · intro hmem
      have hle := le_of_mem_encodeChar hd _ hmem
      rw [toNat_toUInt8 (by omega)] at hle
      omega
    · rintro rfl
      exact absurd h hd

/-- **The bytes below `0x80` of a text are its characters below `0x80`.** -/
theorem mem_encode_iff {c : Char} {text : Text} (h : c.toNat < 0x80) :
    c.toNat.toUInt8 ∈ encode text ↔ c ∈ text := by
  simp only [encode, List.mem_flatMap, mem_encodeChar_iff h, exists_eq_right']

/-- Only the empty text has no bytes. -/
theorem encode_eq_nil_iff {text : Text} : encode text = [] ↔ text = [] := by
  refine ⟨fun h => ?_, fun h => h ▸ rfl⟩
  rw [← lossy_encode text, h]
  rfl

end Utf8

end Text

/-! ### Paths that texts spell -/

namespace Path

/-- A path that a text spells. -/
def IsUtf8 (path : Path) : Prop :=
  ∃ spelled, path = ofText spelled

/-- The text of a path that a text spells is that text. -/
theorem text_ofText (spelled : Text) : text (ofText spelled) = spelled :=
  Text.Utf8.lossy_encode spelled

/-- **Paths that texts spell are told apart by their texts.** -/
theorem IsUtf8.text_inj {path other : Path} (h : path.IsUtf8) (hother : other.IsUtf8) :
    path.text = other.text ↔ path = other := by
  obtain ⟨spelled, rfl⟩ := h
  obtain ⟨otherSpelled, rfl⟩ := hother
  rw [text_ofText, text_ofText]
  exact ⟨congrArg ofText, fun heq => by rw [← text_ofText spelled, heq, text_ofText]⟩

end Path

end SymbolDocs
