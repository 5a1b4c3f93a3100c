import TemplateConditions.Number.Power

/-!
# Binary64 numbers

Finite binary64 numbers as exact values: a sign, a natural mantissa and a power of two.  All
rounding goes through one function, the nearest number to a quotient of naturals with ties to the
even mantissa, so multiplication and division are exact operations rounded once.
-/

namespace TemplateConditions

/-- The number `mantissa * 2 ^ exponent`, negated if `negative`.  The mantissa has 53 bits, or fewer
at the least exponent, -1074. -/
structure Binary64 where
  negative : Bool
  mantissa : Nat
  exponent : Int
  deriving DecidableEq

namespace Binary64

def zero (negative : Bool) : Binary64 :=
  ⟨negative, 0, -1074⟩

def isZero (x : Binary64) : Bool :=
  x.mantissa == 0

/-- Equality of values: the two zeros are equal. -/
def sameValue (x y : Binary64) : Bool :=
  x == y || (x.isZero && y.isZero)

/-- The quotient rounded to an integer; a half goes to the even neighbour. -/
def roundQuotient (num den : Nat) : Nat :=
  let q := num / den
  let r := num % den
  if 2 * r < den then q
  else if den < 2 * r then q + 1
  else if q % 2 = 0 then q else q + 1

/-- Numerator and denominator of `(num / den) / 2 ^ exponent`. -/
def scaledBy (num den : Nat) (exponent : Int) : Nat × Nat :=
  (num * power 2 (-exponent), den * power 2 exponent)

/-- The exponent at which the quotient has a 53-bit integer part, but no less than -1074. -/
def exponentFor (num den : Nat) : Int :=
  let estimate : Int := (num.log2 : Int) - den.log2 - 53
  let (n, d) := scaledBy num den estimate
  max (if power 2 53 ≤ n / d then estimate + 1 else estimate) (-1074)

/-- The number nearest to `num / den`, or none where that rounds to infinity. -/
def nearest? (negative : Bool) (num den : Nat) : Option Binary64 :=
  if num = 0 then some (zero negative)
  else
    let exponent := exponentFor num den
    let (n, d) := scaledBy num den exponent
    let m := roundQuotient n d
    let x : Binary64 :=
      if m = power 2 53 then ⟨negative, power 2 52, exponent + 1⟩ else ⟨negative, m, exponent⟩
    if 971 < x.exponent then none
    else if x.mantissa = 0 then some (zero negative)
    else some x

/-- The number nearest to `digits * 10 ^ exponent`, or none where that rounds to infinity.  Beyond
400 places either way the answer does not depend on the digits, and no power is computed. -/
def ofDecimal? (negative : Bool) (digits : Nat) (exponent : Int) : Option Binary64 :=
  if digits = 0 then some (zero negative)
  else
    let places : Int := (Nat.toDigits 10 digits).length
    if 400 < exponent + places then none
    else if exponent + places < -400 then some (zero negative)
    else nearest? negative (digits * power 10 exponent) (power 10 (-exponent))

/-- The rounded product, or none where it is infinite. -/
def mul? (x y : Binary64) : Option Binary64 :=
  let e := x.exponent + y.exponent
  nearest? (x.negative != y.negative) (x.mantissa * y.mantissa * power 2 e)
    (power 2 (-e))

/-- The rounded quotient, or none where it is infinite or the divisor is zero. -/
def div? (x y : Binary64) : Option Binary64 :=
  if y.isZero then none
  else
    let e := x.exponent - y.exponent
    nearest? (x.negative != y.negative) (x.mantissa * power 2 e)
      (y.mantissa * power 2 (-e))

end Binary64

end TemplateConditions
