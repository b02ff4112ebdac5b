import SymbolDocs.Decimal.Shortest
set_option autoImplicit false

/-!
# Numbers of the interchange format

A number literal without fraction and exponent stands for an integer of 64 bits, signed when it is
negative. Every other literal, and every integer out of that range, stands for a floating-point
number. A literal beyond the largest floating-point number stands for no value.

## Main definitions

* `JsonNumber` — the two kinds of numbers.
* `NumberLiteral` — the parts of a literal.
* `NumberLiteral.value?` — what a literal stands for.

## Design

The digits of a literal that fit into 64 bits are rounded to a floating-point number, which is then
multiplied with or divided by a rounded power of ten; digits beyond those count with their power of
ten only.
-/

namespace SymbolDocs

/-- A number. -/
inductive JsonNumber where
  /-- An integer. -/
  | integer (value : Int)
  /-- A floating-point number. -/
  | real (value : Binary64)
  deriving DecidableEq, Repr

/-- The written form of a number. -/
def JsonNumber.render : JsonNumber → Text
  | .integer (.ofNat n) => Text.ofNat n
  | .integer (.negSucc n) => '-' :: Text.ofNat (n + 1)
  | .real x => x.render

/-- The parts of a number literal. -/
structure NumberLiteral where
  /-- Whether the literal begins with a minus sign. -/
  negative : Bool
  /-- The digits before the point. -/
  whole : Text
  /-- The digits after the point; none without a point. -/
  fraction : Text := []
  /-- The sign and the digits of the exponent. -/
  exponent : Option (Bool × Text) := none
  deriving DecidableEq, Repr

namespace NumberLiteral

/-- The value of a decimal digit. -/
def digitValue (c : Char) : Nat :=
  c.toNat - '0'.toNat

/-- The value of a text of decimal digits. -/
def digitsValue (digits : Text) : Nat :=
  digits.foldl (fun n c => 10 * n + digitValue c) 0

/-- The leading digits of a text that keep a growing number below `2 ^ 64`: the number they lead to
and how many digits are left. -/
def absorb (n : Nat) : Text → Nat × Nat
  | [] => (n, 0)
  | c :: digits =>
    let next := 10 * n + digitValue c
    if next < UInt64.size then absorb next digits else (n, digits.length + 1)

/-- A floating-point number times a power of ten, in steps of at most `10 ^ 308`, of which `steps`
are allowed. -/
def timesPowerOfTen : Nat → Binary64 → Int → Option Binary64
  | 0, x, _ => some x
  | steps + 1, x, exponent =>
    let power (n : Nat) : Option Binary64 := Binary64.nearest false ⟨Nat.pow 10 n, 1⟩
    if exponent.natAbs ≤ 308 then do
      let ten ← power exponent.natAbs
      if 0 ≤ exponent then x.mul ten else x.div ten
    else if x.mantissa = 0 then some x
    else if 0 ≤ exponent then none
    else do
      let ten ← power 308
      let smaller ← x.div ten
      timesPowerOfTen steps smaller (exponent + 308)

/-- The floating-point number of a literal. -/
def real? (literal : NumberLiteral) : Option Binary64 := do
  let (leading, dropped) := absorb 0 literal.whole
  let (digits, ignored) := absorb leading literal.fraction
  let point : Int := (dropped : Int) - (literal.fraction.length - ignored : Nat)
  let significand ← Binary64.nearest literal.negative ⟨digits, 1⟩
  match literal.exponent with
  | none => timesPowerOfTen 400 significand point
  | some (negative, exponent) =>
    let power := digitsValue exponent
    if power ≥ Nat.pow 2 31 then
      if digits = 0 || negative then some ⟨literal.negative, 0, 0⟩ else none
    else timesPowerOfTen 400 significand (if negative then point - power else point + power)

/-- What a literal stands for. -/
def value? (literal : NumberLiteral) : Option JsonNumber :=
  let n := digitsValue literal.whole
  match literal.fraction, literal.exponent with
  | [], none =>
    if literal.negative then
      if 0 < n ∧ n ≤ Nat.pow 2 63 then some (.integer (-n)) else literal.real?.map .real
    else if n < UInt64.size then some (.integer n) else literal.real?.map .real
  | _, _ => literal.real?.map .real

end NumberLiteral

end SymbolDocs
