import TemplateConditions.Cli.Run
import TemplateConditions.Proofs.Text.Decimal

/-!
# The limit of a run

The depth limit comes from the flag, where zero counts as one, or from the text in the environment,
where zero and all that is no number below `2 ^ 64` count as nothing.
-/

namespace TemplateConditions

namespace DepthLimit

/-- The text writes the number, with blanks around it. -/
def Sets (text : String) (n : Nat) : Prop :=
  ∃ core, Text.TrimsTo text.toList core ∧ Text.NumberWrittenAs core n

theorem Sets.unique {text : String} {m n : Nat} (hm : Sets text m) (hn : Sets text n) : m = n := by
  obtain ⟨core, hcore, hm⟩ := hm
  obtain ⟨other, hother, hn⟩ := hn
  rw [hcore.unique hother] at hm
  exact hm.unique hn

/-- What a number is printed as sets it, whatever blanks are put around it. -/
theorem sets_padded {before after : String} (hbefore : Text.Blank before.toList)
    (hafter : Text.Blank after.toList) (n : Nat) : Sets (before ++ Text.decimal n ++ after) n := by
  have hwritten : Text.NumberWrittenAs (Nat.toDigits 10 n) n := .digits (Text.digitsOf_toDigits n)
  refine ⟨_, ⟨hwritten.bare, before.toList, after.toList, ?_, hbefore, hafter⟩, hwritten⟩
  rw [String.toList_append, String.toList_append, Text.decimal, String.toList_ofList]

/-- The number of the trimmed text is a word if it is below `2 ^ 64`. -/
theorem readWord?_trim_eq_some_iff {text : String} {n : Nat} :
    Text.readWord? (Text.trim text).toList = some n ↔ Sets text n ∧ n < 2 ^ 64 := by
  rw [Text.readWord?_eq_some_iff]
  refine and_congr_left fun _ => ⟨fun h => ⟨_, Text.trimsTo_trim text, h⟩, ?_⟩
  rintro ⟨core, hcore, hwritten⟩
  rw [(Text.trimsTo_trim text).unique hcore]
  exact hwritten

/-- Any positive word in the environment is the limit. -/
theorem value_ofEnvironment_of_word {text : String} {n : Nat}
    (h : Text.readWord? (Text.trim text).toList = some n) (hpos : 1 ≤ n) :
    (ofEnvironment (some text)).value = n := by
  obtain ⟨m, rfl⟩ := Nat.exists_eq_add_of_le' hpos
  simp only [ofEnvironment, h]

/-- Without one the limit is the default. -/
theorem ofEnvironment_of_no_word {text : String}
    (h : ∀ n, Text.readWord? (Text.trim text).toList = some n → n = 0) :
    ofEnvironment (some text) = default := by
  unfold ofEnvironment
  split
  · rfl
  · rename_i other hsome
    obtain rfl := Option.some.inj hsome
    split
    · rename_i n hword
      exact absurd (h _ hword) (Nat.succ_ne_zero n)
    · rfl

theorem value_ofEnvironment_of_sets {text : String} {n : Nat} (h : Sets text n) :
    (ofEnvironment (some text)).value = if 1 ≤ n ∧ n < 2 ^ 64 then n else 64 := by
  split
  · rename_i hrange
    exact value_ofEnvironment_of_word (readWord?_trim_eq_some_iff.2 ⟨h, hrange.2⟩) hrange.1
  · rename_i hrange
    rw [ofEnvironment_of_no_word]
    · rfl
    · -- A word that is read would be the number that the text sets, so it can only be zero.
      intro m hword
      obtain ⟨hsets, hlt⟩ := readWord?_trim_eq_some_iff.1 hword
      rw [h.unique hsets] at hrange
      omega

theorem value_ofEnvironment_of_not_sets {environment : Option String}
    (h : ∀ text, environment = some text → ∀ n, ¬ Sets text n) :
    (ofEnvironment environment).value = 64 := by
  cases environment with
  | none => rfl
  | some text =>
    rw [ofEnvironment_of_no_word]
    · rfl
    · intro n hword
      exact absurd (readWord?_trim_eq_some_iff.1 hword).1 (h text rfl n)

end DepthLimit

namespace Cli

open DepthLimit

/-- The limit of a run is positive.  It is the number of the flag, or one for zero; without the flag
it is the number that the text in the environment sets, if that is positive and below `2 ^ 64`, and
64 in all other cases.  So a number of that range can be printed and padded with blanks, and is the
limit that is read back. -/
theorem limit_of_flag_or_environment :
    (∀ (invocation : Invocation) (env : Environment),
      let limit := invocation.limit env
      1 ≤ limit.value ∧
      (∀ k, invocation.maxDepth = some k → limit.value = max k 1) ∧
      (invocation.maxDepth = none →
        (∀ text n, env.lookup environmentName = some text → Sets text n →
          limit.value = if 1 ≤ n ∧ n < 2 ^ 64 then n else 64) ∧
        ((∀ text, env.lookup environmentName = some text → ∀ n, ¬ Sets text n) →
          limit.value = 64))) ∧
    ∀ (n : Nat) (before after : String), Text.Blank before.toList → Text.Blank after.toList →
      (ofEnvironment (some (before ++ Text.decimal n ++ after))).value =
        if 1 ≤ n ∧ n < 2 ^ 64 then n else 64 := by
  refine ⟨fun invocation env => ?_, fun n before after hbefore hafter =>
    value_ofEnvironment_of_sets (sets_padded hbefore hafter n)⟩
  intro limit
  refine ⟨limit.pos, fun k hflag => ?_, fun hflag => ⟨fun text n htext hsets => ?_, fun hnone => ?_⟩⟩
  · simp only [limit, Invocation.limit, hflag, effective, atLeastOne]
  · simp only [limit, Invocation.limit, hflag, effective, htext]
    exact value_ofEnvironment_of_sets hsets
  · simp only [limit, Invocation.limit, hflag, effective]
    exact value_ofEnvironment_of_not_sets hnone

/-- The greatest number that can be set, with a sign, zeros in front and blanks around it; the number
behind it is too great, and a zero in the flag wins over both. -/
theorem limit_of_greatest_word :
    let text := "\u2003+0018446744073709551615\n"
    let env : Environment := [(environmentName, text)]
    Sets text 18446744073709551615 ∧
      (Invocation.limit ⟨false, none, .list "t.yaml"⟩ env).value = 18446744073709551615 ∧
      (Invocation.limit ⟨false, some 0, .list "t.yaml"⟩ env).value = 1 ∧
      (ofEnvironment (some ("\t" ++ Text.decimal (2 ^ 64) ++ "\u00a0"))).value = 64 := by
  intro text env
  have hdigits : Text.DigitsOf "0018446744073709551615".toList 18446744073709551615 := by decide
  have hsets : Sets text 18446744073709551615 :=
    ⟨'+' :: "0018446744073709551615".toList,
      ⟨by decide, ['\u2003'], ['\n'], by decide, by decide, by decide⟩, .signed hdigits⟩
  obtain ⟨hlimit, hpadded⟩ := limit_of_flag_or_environment
  refine ⟨hsets, ?_, ?_, ?_⟩
  · have hread := ((hlimit ⟨false, none, .list "t.yaml"⟩ env).2.2 rfl).1 text _ rfl hsets
    rw [hread, if_pos (by decide)]
  · exact (hlimit ⟨false, some 0, .list "t.yaml"⟩ env).2.1 0 rfl
  · have hread := hpadded (2 ^ 64) "\t" "\u00a0" (by decide) (by decide)
    rw [hread, if_neg (by decide)]

end Cli

end TemplateConditions
