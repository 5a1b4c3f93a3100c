import TemplateConditions.Json.Basic
import TemplateConditions.Text.Digits

/-!
# Reading JSON numbers

An integer that fits 64 bits, signed or unsigned, is exact.  Any other number is read as a 64-bit
natural number times a power of ten: the natural number collects the leading digits as far as they
fit, it is rounded to binary64, and the power of ten is applied by one rounded multiplication or
division, or by several where it exceeds 10^308.  The result can therefore be one unit in the last
place away from the number that is nearest to the text.
-/

namespace TemplateConditions.JsonNumber

/-- Appends digits to `n` as long as it stays below `2 ^ 64`; also counts the digits left out. -/
def collect : Nat → List Nat → Nat × Nat
  | n, [] => (n, 0)
  | n, d :: rest =>
    if 10 * n + d < power 2 64 then collect (10 * n + d) rest else (n, rest.length + 1)

/-- Multiplies by `10 ^ k` with rounding; none where the result is infinite. -/
def scaleByTens? (x : Binary64) (k : Int) : Option Binary64 :=
  if 308 < k.natAbs then
    if x.isZero then some x
    else if 0 ≤ k then none
    else do
      let power ← Binary64.ofDecimal? false 1 308
      scaleByTens? (← x.div? power) (k + 308)
  else do
    let power ← Binary64.ofDecimal? false 1 k.natAbs
    if 0 ≤ k then x.mul? power else x.div? power
termination_by k.natAbs

/-- The sign, digit groups and exponent of a number's text. -/
structure Parts where
  negative : Bool
  whole : List Nat
  fraction : List Nat
  exponent : Option Int

/-- The value of a number's text; none where it is infinite. -/
def ofParts? (parts : Parts) : Option JsonNumber :=
  let (n, dropped) := collect 0 parts.whole
  if parts.fraction.isEmpty && parts.exponent.isNone && dropped == 0 then
    if !parts.negative then some (.int n)
    else if n = 0 ∨ power 2 63 < n then (Binary64.nearest? true n 1).map .float
    else some (.int (-n))
  else do
    let (kept, unused) := collect n parts.fraction
    let places : Int := dropped - (parts.fraction.length - unused : Nat)
    let x ← Binary64.nearest? parts.negative kept 1
    return .float (← scaleByTens? x (places + parts.exponent.getD 0))

/-- The whole digits in front: a lone zero, or digits that do not start with zero. -/
def wholeDigits? (cs : List Char) : Option (List Nat × List Char) :=
  match Text.spanDigits cs with
  | ([], _) => none
  | (0 :: _ :: _, _) => none
  | (digits, rest) => some (digits, rest)

/-- One or more digits behind a point, if there is a point. -/
def fractionDigits? : List Char → Option (List Nat × List Char)
  | '.' :: rest =>
    match Text.spanDigits rest with
    | ([], _) => none
    | (digits, rest) => some (digits, rest)
  | cs => some ([], cs)

/-- A number at the front of the text, and what follows it. -/
def read? (cs : List Char) : Option (JsonNumber × List Char) := do
  let (negative, cs) : Bool × List Char := match cs with
    | '-' :: rest => (true, rest)
    | _ => (false, cs)
  let (whole, cs) ← wholeDigits? cs
  let (fraction, cs) ← fractionDigits? cs
  let (exponent, cs) ← Text.readExponent? cs
  let value ← ofParts? ⟨negative, whole, fraction, exponent⟩
  return (value, cs)

end TemplateConditions.JsonNumber
