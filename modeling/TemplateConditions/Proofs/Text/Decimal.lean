import Mathlib.Algebra.Ring.Nat
import TemplateConditions.Proofs.Text.Trimming
import TemplateConditions.Text.Digits

/-!
# Reading decimal numbers

A number is read from digits, of which the first ones may be zeros, behind at most one plus sign.
What a number is printed as is one of its written forms, and there are no blanks in any of them.
-/

namespace TemplateConditions.Text

/-! ## Digits -/

/-- The characters are digits, at least one of them, and the number is the one that they write. -/
structure DigitsOf (cs : List Char) (n : Nat) : Prop where
  ne_nil : cs ≠ []
  digits : ∀ c ∈ cs, c.isDigit = true
  value : Nat.ofDigitChars 10 cs 0 = n

instance (cs : List Char) (n : Nat) : Decidable (DigitsOf cs n) :=
  decidable_of_iff (cs ≠ [] ∧ cs.all Char.isDigit = true ∧ Nat.ofDigitChars 10 cs 0 = n) <| by
    rw [List.all_eq_true]
    exact ⟨fun h => ⟨h.1, h.2.1, h.2.2⟩, fun h => ⟨h.ne_nil, h.digits, h.value⟩⟩

theorem isDigit_iff {c : Char} : c.isDigit = true ↔ '0' ≤ c ∧ c ≤ '9' := by
  simp only [Char.isDigit, Bool.and_eq_true, decide_eq_true_eq]
  rfl

theorem decimalValue?_of_isDigit {c : Char} (h : c.isDigit = true) :
    decimalValue? c = some (c.toNat - '0'.toNat) :=
  if_pos (isDigit_iff.1 h)

theorem decimalValue?_eq_some {c : Char} {d : Nat} (h : decimalValue? c = some d) :
    c.isDigit = true := by
  unfold decimalValue? at h
  split at h
  · rename_i hrange
    exact isDigit_iff.2 hrange
  · exact absurd h (by simp)

/-- Reading goes on from the number that was read before. -/
theorem foldlM_decimalValue? {cs : List Char} {start n : Nat} :
    cs.foldlM (fun n c => (decimalValue? c).map (10 * n + ·)) start = some n ↔
      (∀ c ∈ cs, c.isDigit = true) ∧ Nat.ofDigitChars 10 cs start = n := by
  induction cs generalizing start with
  | nil => simp [Nat.ofDigitChars]
  | cons c rest ih =>
    rw [List.foldlM_cons, List.forall_mem_cons, Nat.ofDigitChars_cons, and_assoc, ← ih,
      Option.bind_eq_bind]
    constructor
    · intro h
      obtain ⟨m, hm, hrest⟩ := Option.bind_eq_some_iff.1 h
      obtain ⟨d, hd, rfl⟩ := Option.map_eq_some_iff.1 hm
      have hdigit := decimalValue?_eq_some hd
      rw [decimalValue?_of_isDigit hdigit, Option.some.injEq] at hd
      rw [hd]
      exact ⟨hdigit, hrest⟩
    · rintro ⟨hdigit, hrest⟩
      rw [decimalValue?_of_isDigit hdigit, Option.map_some, Option.bind_some]
      exact hrest

theorem readDigits?_eq_some_iff {cs : List Char} {n : Nat} :
    readDigits? decimalValue? 10 cs = some n ↔ DigitsOf cs n := by
  cases cs with
  | nil => exact iff_of_false (by simp [readDigits?]) fun h => h.ne_nil rfl
  | cons c rest =>
    refine foldlM_decimalValue?.trans ⟨fun h => ?_, fun h => ⟨h.digits, h.value⟩⟩
    exact ⟨List.cons_ne_nil c rest, h.1, h.2⟩

theorem digitsOf_toDigits (n : Nat) : DigitsOf (Nat.toDigits 10 n) n where
  ne_nil := Nat.toDigits_ne_nil
  digits _ hc := Nat.isDigit_of_mem_toDigits (by decide) (by decide) hc
  value := Nat.ofDigitChars_toDigits (by decide) (by decide)

/-! ## Written numbers -/

/-- A number as it may be written. -/
inductive NumberWrittenAs : List Char → Nat → Prop
  | digits {cs : List Char} {n : Nat} (h : DigitsOf cs n) : NumberWrittenAs cs n
  | signed {cs : List Char} {n : Nat} (h : DigitsOf cs n) : NumberWrittenAs ('+' :: cs) n

/-- A sign is no digit, so the two forms do not meet. -/
theorem numberWrittenAs_plus_iff {cs : List Char} {n : Nat} :
    NumberWrittenAs ('+' :: cs) n ↔ DigitsOf cs n := by
  constructor
  · intro h
    cases h with
    | digits h => exact absurd (h.digits '+' List.mem_cons_self) (by decide)
    | signed h => exact h
  · exact .signed

theorem numberWrittenAs_iff {cs : List Char} {n : Nat} (h : cs.head? ≠ some '+') :
    NumberWrittenAs cs n ↔ DigitsOf cs n := by
  constructor
  · intro hwritten
    cases hwritten with
    | digits hdigits => exact hdigits
    | signed => exact absurd rfl h
  · exact .digits

theorem power_two_64 : power 2 64 = 2 ^ 64 := rfl

/-- A word is read exactly from the written forms of the numbers below `2 ^ 64`. -/
theorem readWord?_eq_some_iff {cs : List Char} {n : Nat} :
    readWord? cs = some n ↔ NumberWrittenAs cs n ∧ n < 2 ^ 64 := by
  unfold readWord?
  rw [Option.filter_eq_some_iff, decide_eq_true_eq, power_two_64]
  refine and_congr_left fun _ => ?_
  split
  · rw [readDigits?_eq_some_iff, numberWrittenAs_plus_iff]
  · rename_i hplain
    rw [readDigits?_eq_some_iff, numberWrittenAs_iff]
    intro hhead
    obtain ⟨rest, rfl⟩ := List.head?_eq_some_iff.1 hhead
    exact hplain rest rfl

theorem NumberWrittenAs.unique {cs : List Char} {m n : Nat} (hm : NumberWrittenAs cs m)
    (hn : NumberWrittenAs cs n) : m = n := by
  cases hm with
  | digits hm =>
    cases hn with
    | digits hn => exact hm.value.symm.trans hn.value
    | signed => exact absurd (hm.digits '+' List.mem_cons_self) (by decide)
  | signed hm => exact hm.value.symm.trans (numberWrittenAs_plus_iff.1 hn).value

/-! ## Blanks -/

theorem isBlank_of_isDigit {c : Char} (h : c.isDigit = true) : isBlank c = false := by
  obtain ⟨hlow, hhigh⟩ := isDigit_iff.1 h
  have hlow : 0x30 ≤ c.toNat := hlow
  have hhigh : c.toNat ≤ 0x39 := hhigh
  simp only [isBlank, blankRanges, inRanges]
  simp
  omega

theorem NumberWrittenAs.not_blank {cs : List Char} {n : Nat} (h : NumberWrittenAs cs n) :
    ∀ c ∈ cs, isBlank c = false := by
  cases h with
  | digits h => exact fun c hc => isBlank_of_isDigit (h.digits c hc)
  | signed h =>
    exact List.forall_mem_cons.2 ⟨by decide, fun c hc => isBlank_of_isDigit (h.digits c hc)⟩

theorem NumberWrittenAs.bare {cs : List Char} {n : Nat} (h : NumberWrittenAs cs n) : Bare cs :=
  ⟨fun c hc => h.not_blank c (List.mem_of_head? hc),
    fun c hc => h.not_blank c (List.mem_of_getLast? hc)⟩

end TemplateConditions.Text
