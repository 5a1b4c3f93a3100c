import TemplateConditions.Number.Power

/-!
# Digits

Writing a number in decimal or in lower-case hexadecimal, and reading digits and exponents back.
-/

namespace TemplateConditions.Text

/-- The digit for a value below sixteen. -/
def hexDigit (n : Nat) : Char :=
  if n < 10 then Char.ofNat (0x30 + n) else Char.ofNat (0x57 + n)

/-- The value of a decimal digit. -/
def decimalValue? (c : Char) : Option Nat :=
  if '0' ≤ c ∧ c ≤ '9' then some (c.toNat - 0x30) else none

/-- The value of a hexadecimal digit of either case. -/
def hexValue? (c : Char) : Option Nat :=
  if '0' ≤ c ∧ c ≤ '9' then some (c.toNat - 0x30)
  else if 'a' ≤ c ∧ c ≤ 'f' then some (c.toNat - 0x57)
  else if 'A' ≤ c ∧ c ≤ 'F' then some (c.toNat - 0x37)
  else none

def isDigit (c : Char) : Bool :=
  (decimalValue? c).isSome

/-- The last `width` hexadecimal digits of `n`, most significant first. -/
def hexDigits : Nat → Nat → List Char
  | 0, _ => []
  | width + 1, n => hexDigits width (n / 16) ++ [hexDigit (n % 16)]

/-- As few hexadecimal digits as `n` needs. -/
def hex (n : Nat) : List Char :=
  Nat.toDigits 16 n

/-- As few decimal digits as `n` needs. -/
def decimal (n : Nat) : String :=
  String.ofList (Nat.toDigits 10 n)

/-- An integer in decimal, with a minus sign if it is negative. -/
def signedDecimal (n : Int) : String :=
  if n < 0 then "-" ++ decimal n.natAbs else decimal n.natAbs

/-- The value of a non-empty text that holds only digits of the base. -/
def readDigits? (value? : Char → Option Nat) (base : Nat) : List Char → Option Nat
  | [] => none
  | c :: cs => (c :: cs).foldlM (fun n d => (value? d).map (base * n + ·)) 0

/-- The digit values of the longest run of decimal digits in front, and what follows it. -/
def spanDigits : List Char → List Nat × List Char
  | [] => ([], [])
  | c :: cs =>
    match decimalValue? c with
    | some d => (d :: (spanDigits cs).1, (spanDigits cs).2)
    | none => ([], c :: cs)

/-- The number that a list of decimal digits writes. -/
def ofDigits (digits : List Nat) : Nat :=
  digits.foldl (fun n d => 10 * n + d) 0

/-- The digits behind an exponent mark, which may have a sign, and what follows them. -/
def readExponentDigits? (cs : List Char) : Option (Int × List Char) :=
  let (negative, digits) : Bool × List Char := match cs with
    | '+' :: rest => (false, rest)
    | '-' :: rest => (true, rest)
    | _ => (false, cs)
  match spanDigits digits with
  | ([], _) => none
  | (ds, rest) =>
    let n : Int := ofDigits ds
    some (if negative then -n else n, rest)

/-- An exponent, if there is an exponent mark, and what follows it. -/
def readExponent? : List Char → Option (Option Int × List Char)
  | 'e' :: rest => (readExponentDigits? rest).map fun (n, rest) => (some n, rest)
  | 'E' :: rest => (readExponentDigits? rest).map fun (n, rest) => (some n, rest)
  | cs => some (none, cs)

/-- A natural number below `2 ^ 64`: one or more decimal digits, of which leading ones may be zero,
behind at most one plus sign. -/
def readWord? (cs : List Char) : Option Nat :=
  let digits := match cs with
    | '+' :: rest => rest
    | _ => cs
  (readDigits? decimalValue? 10 digits).filter (· < power 2 64)

end TemplateConditions.Text
