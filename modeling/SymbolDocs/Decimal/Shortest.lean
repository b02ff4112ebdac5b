import SymbolDocs.Decimal.Binary
set_option autoImplicit false

/-!
# Shortest decimal texts

A floating-point number is written with the fewest digits that read back as the same number, and of
those the digits nearest to it. Numbers from `10 ^ -5` up to, not including, `10 ^ 16` are written
positionally with at least one digit on each side of the point, all others with an exponent that
always has a sign.

## Main definitions

* `Decimal` — decimal digits and a power of ten.
* `Binary64.shortest` — the shortest decimal that reads back.
* `Binary64.render` — the written form of a number.

## Design

The decimals with `n` digits around a number form a grid. If a point of the grid reads back, so does
one of the number's two neighbours on it, so that two candidates for each `n` are enough. Seventeen
digits always read back.
-/

namespace SymbolDocs

/-- A decimal number `digits · 10 ^ exponent`. -/
structure Decimal where
  /-- The digits as one whole number. -/
  digits : Nat
  /-- The power of ten. -/
  exponent : Int
  deriving DecidableEq, Repr

namespace Decimal

/-- The value of a decimal. -/
def value (decimal : Decimal) : Ratio :=
  Ratio.scale ⟨decimal.digits, 1⟩ 10 decimal.exponent

/-- A decimal without its last zeros, at most `limit` of them. -/
def trim : Nat → Decimal → Decimal
  | 0, decimal => decimal
  | limit + 1, decimal =>
    if decimal.digits % 10 = 0 && decimal.digits != 0 then
      trim limit ⟨decimal.digits / 10, decimal.exponent + 1⟩
    else decimal

/-- The written form of a decimal that is not zero. -/
def render (decimal : Decimal) : Text :=
  let digits := Text.ofNat decimal.digits
  let leading := decimal.exponent + digits.length - 1
  if -5 ≤ leading && leading < 16 then
    if 0 ≤ decimal.exponent then
      digits ++ List.replicate decimal.exponent.toNat '0' ++ ".0".toList
    else if 0 ≤ leading then
      digits.take (leading + 1).toNat ++ '.' :: digits.drop (leading + 1).toNat
    else
      "0.".toList ++ List.replicate (-leading - 1).toNat '0' ++ digits
  else
    let fraction :=
      match digits.drop 1 with
      | [] => []
      | rest => '.' :: rest
    let sign := if 0 ≤ leading then '+' else '-'
    digits.take 1 ++ fraction ++ 'e' :: sign :: Text.ofNat leading.natAbs

end Decimal

namespace Binary64

/-- The power of ten of the leading digit of a positive fraction. -/
def leadingPower (ratio : Ratio) : Int :=
  if ratio.den ≤ ratio.num then
    ((Text.ofNat ratio.floor).length : Int) - 1
  else
    let places := (Text.ofNat (ratio.den / ratio.num)).length
    if ratio.den ≤ ratio.num * Nat.pow 10 (places - 1) then 1 - (places : Int) else -(places : Int)

/-- Whether a decimal reads back as a positive number: it lies between the midpoints to the two
neighbours of the number, where the midpoints themselves go to an even mantissa. -/
def readsBack (x : Binary64) (decimal : Decimal) : Bool :=
  let high := Ratio.scale ⟨2 * x.mantissa + 1, 1⟩ 2 (x.exponent - 1)
  let low :=
    if x.mantissa = Nat.pow 2 52 && x.exponent > -1074 then
      Ratio.scale ⟨4 * x.mantissa - 1, 1⟩ 2 (x.exponent - 2)
    else Ratio.scale ⟨2 * x.mantissa - 1, 1⟩ 2 (x.exponent - 1)
  if x.mantissa % 2 = 0 then low.le decimal.value && decimal.value.le high
  else low.lt decimal.value && decimal.value.lt high

/-- The candidate with `length` digits: of the two neighbours of the number on that grid the nearer
one that reads back. -/
def candidate? (x : Binary64) (length : Nat) : Option Decimal :=
  let exponent := leadingPower x.magnitude - length + 1
  let onGrid := x.magnitude.scale 10 (-exponent)
  let near := onGrid.round
  let far := if near = onGrid.floor then near + 1 else onGrid.floor
  [near, far].findSome? fun digits =>
    let decimal : Decimal := ⟨digits, exponent⟩
    if readsBack x decimal then some decimal else none

/-- The shortest decimal that reads back as a positive number. -/
def shortest (x : Binary64) : Decimal :=
  match (List.range 17).findSome? fun n => candidate? x (n + 1) with
  | some decimal => decimal.trim 20
  | none => ⟨x.mantissa, 0⟩

/-- The written form of a number. -/
def render (x : Binary64) : Text :=
  let digits := if x.mantissa = 0 then "0.0".toList else x.shortest.render
  if x.negative then '-' :: digits else digits

end Binary64

end SymbolDocs
