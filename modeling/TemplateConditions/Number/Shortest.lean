import TemplateConditions.Number.Binary64

/-!
# The fewest digits that identify a number

Among the decimals that round to a given binary64 number, the one with the fewest digits, and of
those the nearest.  All comparisons are exact, in natural numbers.
-/

namespace TemplateConditions.Shortest

/-- The decimal `digits * 10 ^ exponent`. -/
structure Decimal where
  digits : Nat
  exponent : Int
  deriving DecidableEq

/-- Compares `a * 10 ^ i` with `b * 2 ^ j`. -/
def compareScaled (a : Nat) (i : Int) (b : Nat) (j : Int) : Ordering :=
  compare (a * power 10 i * power 2 (-j)) (b * power 2 j * power 10 (-i))

/-- Does the decimal round to the magnitude of `x`?  The reals that do form an interval between the
midpoints to the neighbours of `x`, with its ends if the mantissa is even.  Below a power of two
the neighbour is half as far away. -/
def readsBack (x : Binary64) (d : Decimal) : Bool :=
  let narrow := x.mantissa == power 2 52 && x.exponent > -1074
  let low := if narrow then 4 * x.mantissa - 1 else 4 * x.mantissa - 2
  let high := 4 * x.mantissa + 2
  let closed := x.mantissa % 2 == 0
  let fromLow := compareScaled d.digits d.exponent low (x.exponent - 2)
  let fromHigh := compareScaled d.digits d.exponent high (x.exponent - 2)
  (fromLow == .gt || (closed && fromLow == .eq)) && (fromHigh == .lt || (closed && fromHigh == .eq))

/-- The least `k` with `x < 10 ^ k`, for a number that is not zero. -/
def scaleOf (x : Binary64) : Int :=
  let bits : Int := x.mantissa.log2 + x.exponent
  let estimate := bits * 30103 / 100000
  let below (k : Int) : Bool := compareScaled 1 k x.mantissa x.exponent == .gt
  if below (estimate - 1) then estimate - 1
  else if below estimate then estimate
  else if below (estimate + 1) then estimate + 1
  else estimate + 2

/-- The largest multiple of `10 ^ exponent` that is not above `x`, as a multiple. -/
def floorOnGrid (x : Binary64) (exponent : Int) : Nat :=
  x.mantissa * power 2 x.exponent * power 10 (-exponent)
    / (power 2 (-x.exponent) * power 10 exponent)

/-- The decimal with the given last place that reads back as `x`: of two the nearer, and of two
equally near the even one. -/
def onGrid? (x : Binary64) (exponent : Int) : Option Decimal :=
  let n := floorOnGrid x exponent
  let lower : Decimal := ⟨n, exponent⟩
  let upper : Decimal := ⟨n + 1, exponent⟩
  match n != 0 && readsBack x lower, readsBack x upper with
  | true, true =>
    match compareScaled (2 * n + 1) exponent (2 * x.mantissa) x.exponent with
    | .lt => some upper
    | .gt => some lower
    | .eq => some (if n % 2 = 0 then lower else upper)
  | true, false => some lower
  | false, true => some upper
  | false, false => none

/-- Moves trailing zeros of the digits into the exponent. -/
def stripZeros : Nat → Decimal → Decimal
  | 0, d => d
  | steps + 1, d =>
    if d.digits ≠ 0 ∧ d.digits % 10 = 0 then stripZeros steps ⟨d.digits / 10, d.exponent + 1⟩ else d

/-- The exact value of `x` as a decimal. -/
def exact (x : Binary64) : Decimal :=
  if 0 ≤ x.exponent then ⟨x.mantissa * power 2 x.exponent, 0⟩
  else ⟨x.mantissa * power 5 (-x.exponent), x.exponent⟩

/-- The fewest digits that read back as the magnitude of `x`. -/
def shortest (x : Binary64) : Decimal :=
  if x.isZero then ⟨0, 0⟩
  else
    let scale := scaleOf x
    let found := (List.range 17).findSome? fun (n : Nat) => onGrid? x (scale - n - 1)
    stripZeros 20 (found.getD (exact x))

end TemplateConditions.Shortest
