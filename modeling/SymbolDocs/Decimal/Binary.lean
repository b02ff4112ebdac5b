import SymbolDocs.Text.Basic
set_option autoImplicit false

/-!
# Binary floating-point numbers

The finite numbers of double precision, in exact arithmetic: a sign, a mantissa below `2 ^ 53` and
an exponent of two between `-1074` and `971`.

## Main definitions

* `Ratio` — a fraction of natural numbers.
* `Binary64` — the numbers.
* `Binary64.nearest` — the number nearest to a fraction, a tie going to the even mantissa.
* `Binary64.mul`, `Binary64.div` — rounded product and quotient.
-/

namespace SymbolDocs

/-- A fraction of natural numbers; the denominator is positive. -/
structure Ratio where
  /-- The numerator. -/
  num : Nat
  /-- The denominator. -/
  den : Nat
  deriving DecidableEq, Repr

namespace Ratio

/-- A fraction times a power of a base. -/
def scale (ratio : Ratio) (base : Nat) (exponent : Int) : Ratio :=
  if 0 ≤ exponent then ⟨ratio.num * base.pow exponent.toNat, ratio.den⟩
  else ⟨ratio.num, ratio.den * base.pow (-exponent).toNat⟩

/-- Order of fractions. -/
def le (a b : Ratio) : Bool :=
  a.num * b.den ≤ b.num * a.den

/-- Strict order of fractions. -/
def lt (a b : Ratio) : Bool :=
  a.num * b.den < b.num * a.den

/-- The whole part of a fraction. -/
def floor (ratio : Ratio) : Nat :=
  ratio.num / ratio.den

/-- The whole number nearest to a fraction, a tie going to the even one. -/
def round (ratio : Ratio) : Nat :=
  let whole := ratio.floor
  let rest := 2 * (ratio.num % ratio.den)
  if rest > ratio.den || (rest = ratio.den && whole % 2 = 1) then whole + 1 else whole

end Ratio

/-- A finite number of double precision. -/
structure Binary64 where
  /-- Whether the number carries a minus sign. -/
  negative : Bool
  /-- The mantissa, below `2 ^ 53`. -/
  mantissa : Nat
  /-- The exponent of two. -/
  exponent : Int
  deriving DecidableEq, Repr

namespace Binary64

/-- The magnitude of a number. -/
def magnitude (x : Binary64) : Ratio :=
  Ratio.scale ⟨x.mantissa, 1⟩ 2 x.exponent

/-- The number nearest to a fraction, a tie going to the even mantissa; none beyond the largest
number. -/
def nearest (negative : Bool) (ratio : Ratio) : Option Binary64 :=
  if ratio.num = 0 then some ⟨negative, 0, 0⟩
  else
    let guess := max ((ratio.num.log2 : Int) - ratio.den.log2 - 53) (-1074)
    let exponent :=
      if (ratio.scale 2 (-guess)).floor < Nat.pow 2 53 then guess else guess + 1
    let mantissa := (ratio.scale 2 (-exponent)).round
    let (mantissa, exponent) :=
      if mantissa = Nat.pow 2 53 then (Nat.pow 2 52, exponent + 1) else (mantissa, exponent)
    if exponent > 971 then none else some ⟨negative, mantissa, exponent⟩

/-- The rounded product with a magnitude. -/
def mul (x y : Binary64) : Option Binary64 :=
  nearest x.negative ⟨x.magnitude.num * y.magnitude.num, x.magnitude.den * y.magnitude.den⟩

/-- The rounded quotient by a positive magnitude. -/
def div (x y : Binary64) : Option Binary64 :=
  nearest x.negative ⟨x.magnitude.num * y.magnitude.den, x.magnitude.den * y.magnitude.num⟩

end Binary64

end SymbolDocs
