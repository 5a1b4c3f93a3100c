import TemplateConditions.Number.Shortest
import TemplateConditions.Text.Digits

/-!
# Laying out a decimal

How the selected digits of a binary64 number are written: where positional notation ends, and
how an exponent is marked.
-/

namespace TemplateConditions

/-- The decisions of a number format.  `plainFrom` to `plainThrough` are the decimal exponents of
the leading digit that are written positionally, always with a fraction; `plusSign` says whether
a positive exponent carries its sign. -/
structure NumberLayout where
  plainFrom : Int
  plainThrough : Int
  plusSign : Bool

namespace NumberLayout

/-- The digits in scientific notation: a point after the first one, if there are more. -/
def scientific (layout : NumberLayout) (digits : List Char) (exponent : Int) : List Char :=
  let mantissa := match digits with
    | [] => ['0']
    | [d] => [d]
    | d :: rest => d :: '.' :: rest
  let sign := if exponent < 0 then ['-'] else if layout.plusSign then ['+'] else []
  mantissa ++ 'e' :: sign ++ Nat.toDigits 10 exponent.natAbs

/-- The digits in positional notation, where `exponent` is that of the leading digit. -/
def positional (digits : List Char) (exponent : Int) : List Char :=
  if exponent < 0 then
    '0' :: '.' :: List.replicate (exponent.natAbs - 1) '0' ++ digits
  else
    let whole := exponent.toNat + 1
    if digits.length ≤ whole then
      digits ++ List.replicate (whole - digits.length) '0' ++ ['.', '0']
    else
      digits.take whole ++ '.' :: digits.drop whole

/-- The text of a number. -/
def write (layout : NumberLayout) (x : Binary64) : String :=
  let d := Shortest.shortest x
  let digits := Nat.toDigits 10 d.digits
  let exponent := d.exponent + digits.length - 1
  let magnitude :=
    if layout.plainFrom ≤ exponent ∧ exponent ≤ layout.plainThrough then positional digits exponent
    else layout.scientific digits exponent
  String.ofList (if x.negative then '-' :: magnitude else magnitude)

end NumberLayout

end TemplateConditions
