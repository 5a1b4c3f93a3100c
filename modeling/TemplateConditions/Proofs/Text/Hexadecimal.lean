import Mathlib.Tactic.Ring
import TemplateConditions.Text.Digits

/-!
# Reading hexadecimal digits back

A number written in a fixed width of hexadecimal digits is read back modulo the numbers that the
width can hold.  So different numbers of that range have different digits.
-/

namespace TemplateConditions.Text

/-! ## Digits -/

theorem hexValue?_hexDigit {d : Nat} (h : d < 16) : hexValue? (hexDigit d) = some d := by
  revert d
  decide

theorem hexDigit_printable {d : Nat} (h : d < 16) :
    0x20 ≤ (hexDigit d).toNat ∧ (hexDigit d).toNat < 0x7f := by
  revert d
  decide

@[simp] theorem length_hexDigits (width n : Nat) : (hexDigits width n).length = width := by
  induction width generalizing n with
  | zero => rfl
  | succ width ih => rw [hexDigits, List.length_append, ih, List.length_singleton]

theorem exists_of_mem_hexDigits {width n : Nat} {c : Char} (h : c ∈ hexDigits width n) :
    ∃ d < 16, c = hexDigit d := by
  induction width generalizing n with
  | zero => exact absurd h List.not_mem_nil
  | succ width ih =>
    rcases List.mem_append.1 h with hfront | hlast
    · exact ih hfront
    · exact ⟨n % 16, Nat.mod_lt n (by decide), List.mem_singleton.1 hlast⟩

/-! ## Numbers -/

/-- Reading appends the digits to those that were read before. -/
theorem foldlM_hexDigits (width n start : Nat) :
    (hexDigits width n).foldlM (fun n d => (hexValue? d).map (16 * n + ·)) start =
      some (16 ^ width * start + n % 16 ^ width) := by
  induction width generalizing n with
  | zero => simp [hexDigits, Nat.mod_one]
  | succ width ih =>
    -- The last digit is the remainder of the number, the others are those of its quotient.
    rw [hexDigits, List.foldlM_append, ih, Option.bind_eq_bind, Option.bind_some,
      List.foldlM_cons, hexValue?_hexDigit (Nat.mod_lt n (by decide)), Option.map_some,
      Option.bind_eq_bind, Option.bind_some, List.foldlM_nil, Option.pure_def,
      pow_succ', Nat.mod_mul]
    congr 1
    ring

/-- A number that the width can hold is read back from its digits. -/
theorem readDigits?_hexDigits {width n : Nat} (h : n < 16 ^ (width + 1)) :
    readDigits? hexValue? 16 (hexDigits (width + 1) n) = some n := by
  have hread := foldlM_hexDigits (width + 1) n 0
  rw [Nat.mul_zero, Nat.zero_add, Nat.mod_eq_of_lt h] at hread
  obtain ⟨c, cs, hcs⟩ := List.exists_cons_of_length_eq_add_one (length_hexDigits (width + 1) n)
  rw [hcs] at hread ⊢
  exact hread

theorem hexDigits_inj {width m n : Nat} (hm : m < 16 ^ width) (hn : n < 16 ^ width)
    (h : hexDigits width m = hexDigits width n) : m = n := by
  have hread := foldlM_hexDigits width m 0
  rw [h, foldlM_hexDigits width n 0, Nat.mod_eq_of_lt hm, Nat.mod_eq_of_lt hn] at hread
  simpa using hread.symm

end TemplateConditions.Text
