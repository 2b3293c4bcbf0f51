/-
  Recast numbers — double precision.

  A nonnegative finite double is a significand below 2^53 times a power of two from 2^(-1074) to
  2^971.  All arithmetic here is exact arithmetic on naturals, rounded once.

  * `raised b e` is a power with a whole exponent, 1 if the exponent is negative, so that a fraction is
    scaled by `raised b e` above and by `raised b (-e)` below;
  * `roundDiv a b` is the quotient of two naturals, rounded to the nearest natural, a half to the
    even one;
  * `nearest? a b` is the double nearest to `a / b`, none if that is too large for a double;
  * `ofNat?`, `mul?`, `div?`: conversion, product and quotient, each rounded to the nearest double.
-/
namespace Recast.Number

/-- A nonnegative finite double: `significand · 2 ^ power`. -/
structure Binary64 where
  significand : Nat
  power : Int
  deriving DecidableEq, Repr

/-- A power; 1 if the exponent is negative. -/
def raised (base : Nat) (exponent : Int) : Nat :=
  Nat.pow base exponent.toNat

/-- The quotient of two naturals, rounded to the nearest natural, a half to the even one. -/
def roundDiv (a b : Nat) : Nat :=
  let q := a / b
  let r := a % b
  if 2 * r < b then q else if b < 2 * r then q + 1 else q + q % 2

/-- The exponent `e` with `2 ^ e ≤ a / b < 2 ^ (e + 1)`, for `a` and `b` that are not zero. -/
def binaryExponent (a b : Nat) : Int :=
  let e : Int := a.log2 - b.log2
  if a * raised 2 (-e) < b * raised 2 e then e - 1 else e

namespace Binary64

/-- The smallest power of two a double can have. -/
def leastPower : Int := -1074

/-- The largest power of two a double can have. -/
def mostPower : Int := 971

/-- The least significand with all 53 binary digits. -/
def leastNormal : Nat := 0x10000000000000

def zero : Binary64 := ⟨0, leastPower⟩

/-- The double nearest to `a / b`, an exact half going to the even significand. -/
def nearest? (a b : Nat) : Option Binary64 :=
  if a = 0 then some zero
  else
    let power := max (binaryExponent a b - 52) leastPower
    let significand := roundDiv (a * raised 2 (-power)) (b * raised 2 power)
    let rounded : Binary64 :=
      if significand = 2 * leastNormal then ⟨leastNormal, power + 1⟩ else ⟨significand, power⟩
    if rounded.power ≤ mostPower then some rounded else none

/-- The double nearest to `(a / b) · 2 ^ power`. -/
def nearestScaled? (a b : Nat) (power : Int) : Option Binary64 :=
  nearest? (a * raised 2 power) (b * raised 2 (-power))

/-- The double nearest to a natural. -/
def ofNat? (n : Nat) : Option Binary64 :=
  nearest? n 1

/-- The rounded product. -/
def mul? (x y : Binary64) : Option Binary64 :=
  nearestScaled? (x.significand * y.significand) 1 (x.power + y.power)

/-- The rounded quotient, for a divisor that is not zero. -/
def div? (x y : Binary64) : Option Binary64 :=
  nearestScaled? x.significand y.significand (x.power - y.power)

end Binary64

end Recast.Number
