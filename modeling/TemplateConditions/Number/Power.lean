/-!
# Powers

Powers with an integer exponent, as far as they are whole: scaling by a power, whichever sign its
exponent has, is then a multiplication on one side or on the other.
-/

namespace TemplateConditions

/-- The power of a base, or one where the exponent is negative. -/
def power (base : Nat) (exponent : Int) : Nat :=
  base.pow exponent.toNat

theorem power_pos {base : Nat} (h : 0 < base) (exponent : Int) : 0 < power base exponent :=
  Nat.pow_pos h

end TemplateConditions
