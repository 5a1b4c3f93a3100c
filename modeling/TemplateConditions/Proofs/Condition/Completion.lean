import TemplateConditions.Proofs.Condition.Listing

/-!
# Scenarios that assign more

A scenario may be completed step by step.  The unassigned tokens of a condition are the subjects of
its leaves that still lack a value, and nothing else that is assigned later matters: the condition
keeps its truth value as long as none of them gets one.
-/

namespace TemplateConditions

namespace Scenario

/-- The scenario keeps every value of the other one, and may have more. -/
def Extends (scenario other : Scenario) : Prop :=
  ∀ token value, other.get? token = some value → scenario.get? token = some value

variable {scenario other : Scenario}

theorem extends_assign {token : Token} (h : scenario.get? token = none) (value : Comparand) :
    (scenario.assign token value).Extends scenario := by
  intro read previous hread
  have hne : read ≠ token := by
    intro heq
    rw [heq, h] at hread
    exact absurd hread (by simp)
  rw [get?_assign, if_neg hne]
  exact hread

/-- Where a token has a value already, it keeps it, and otherwise it must not get one. -/
theorem Extends.get?_eq (h : scenario.Extends other) {token : Token}
    (hnone : other.get? token = none → scenario.get? token = none) :
    scenario.get? token = other.get? token := by
  cases hvalue : other.get? token with
  | none => exact hnone hvalue
  | some value => exact h token value hvalue

end Scenario

namespace Resolved

variable {condition : Resolved} {scenario other : Scenario}

/-- If no unassigned token gets a value, then the subjects of all leaves read the same. -/
theorem get?_eq_of_leaf (hext : other.Extends scenario)
    (hnone : ∀ token ∈ condition.unassigned scenario, other.get? token = none)
    {name : String} {clause : Clause} (hleaf : (Condition.equals name clause).IsNode condition.tree) :
    other.get? clause.subject = scenario.get? clause.subject := by
  apply hext.get?_eq
  intro hmissing
  apply hnone
  exact mem_unassigned.2 ⟨hmissing, name, clause.comparand, hleaf⟩

theorem holds_of_extends (hext : other.Extends scenario)
    (hnone : ∀ token ∈ condition.unassigned scenario, other.get? token = none) :
    condition.tree.holds other = condition.tree.holds scenario := by
  apply Condition.holds_congr
  intro clause hclause
  obtain ⟨name, hleaf⟩ := Condition.mem_influence_iff.1 hclause
  have hread := get?_eq_of_leaf hext hnone hleaf
  rw [Clause.holds_eq_decide, Clause.holds_eq_decide, hread]

/-- The tokens that are left over are chosen from the same list, by what the scenario assigns. -/
theorem unassigned_of_extends (hext : other.Extends scenario)
    (hnone : ∀ token ∈ condition.unassigned scenario, other.get? token = none) :
    condition.unassigned other = condition.unassigned scenario := by
  apply List.filter_congr
  intro token htoken
  obtain ⟨value, hclause⟩ := Influence.mem_tokens.1 htoken
  rw [condition.influence_eq] at hclause
  obtain ⟨name, hleaf⟩ := Condition.mem_influence_iff.1 hclause
  have hread : other.get? token = scenario.get? token := get?_eq_of_leaf hext hnone hleaf
  show (!(other.get? token).isSome) = !(scenario.get? token).isSome
  rw [hread]

end Resolved

/-- What a scenario leaves unassigned is exactly what the condition still needs.  The list ascends
strictly and has the subjects of the leaves that are without a value; a scenario that assigns more,
but none of these, gives the condition the same truth value and leaves the same list.  So once the
list is empty, whatever else is assigned changes nothing. -/
theorem unassigned_exact_and_sufficient (condition : Resolved) (scenario : Scenario) :
    (condition.unassigned scenario).Pairwise Token.Precedes ∧
    (condition.unassigned scenario).Nodup ∧
    (∀ token, token ∈ condition.unassigned scenario ↔
      scenario.get? token = none ∧
        ∃ name value, (Condition.equals name ⟨token, value⟩).IsNode condition.tree) ∧
    (∀ other : Scenario, other.Extends scenario →
      (∀ token ∈ condition.unassigned scenario, other.get? token = none) →
        condition.tree.holds other = condition.tree.holds scenario ∧
          condition.unassigned other = condition.unassigned scenario) ∧
    (condition.unassigned scenario = [] → ∀ other : Scenario, other.Extends scenario →
      condition.tree.holds other = condition.tree.holds scenario ∧
        condition.unassigned other = []) := by
  have hkeeps : ∀ other : Scenario, other.Extends scenario →
      (∀ token ∈ condition.unassigned scenario, other.get? token = none) →
        condition.tree.holds other = condition.tree.holds scenario ∧
          condition.unassigned other = condition.unassigned scenario := by
    intro other hext hnone
    exact ⟨Resolved.holds_of_extends hext hnone, Resolved.unassigned_of_extends hext hnone⟩
  refine ⟨?_, ?_, ?_, hkeeps, ?_⟩
  · exact (condition.pairwise_unassigned scenario).imp Token.compare_eq_lt_iff.1
  · exact condition.influence.nodup_tokens.filter _
  · intro token
    exact Resolved.mem_unassigned
  · intro hnil other hext
    -- There is no token that must stay without a value.
    rw [← hnil]
    apply hkeeps other hext
    rw [hnil]
    exact fun token htoken => absurd htoken List.not_mem_nil

/-- One of two tokens lacks a value, until it gets one; a third token never counts. -/
theorem unassigned_zone :
    let stage : Token := ⟨"stage"⟩
    let zone : Token := ⟨"zone"⟩
    let tier : Token := ⟨"tier"⟩
    let condition := Resolved.combine "Live" .and
      [.equals "Prod" ⟨stage, .literal "prod"⟩, .equals "Home" ⟨zone, .reference tier⟩]
    let partly := (∅ : Scenario).assign stage (.literal "prod")
    let fully := partly.assign zone (.reference tier)
    condition.unassigned partly = [zone] ∧ condition.unassigned fully = [] ∧
      (partly.assign tier (.literal "gold")).Extends partly ∧
      condition.tree.holds (partly.assign tier (.literal "gold")) = condition.tree.holds partly ∧
      condition.unassigned (partly.assign tier (.literal "gold")) = [zone] ∧
      condition.tree.holds (fully.assign tier (.literal "gold")) = true := by
  intro stage zone tier condition partly fully
  have hpartly : condition.unassigned partly = [zone] := by decide
  have hfully : condition.unassigned fully = [] := by decide
  have hmore : (partly.assign tier (.literal "gold")).Extends partly :=
    Scenario.extends_assign (by decide) _
  have hmost : (fully.assign tier (.literal "gold")).Extends fully :=
    Scenario.extends_assign (by decide) _
  have hzone : ∀ token ∈ condition.unassigned partly,
      (partly.assign tier (.literal "gold")).get? token = none := by
    rw [hpartly]
    decide
  obtain ⟨-, -, -, hkeeps, -⟩ := unassigned_exact_and_sufficient condition partly
  obtain ⟨-, -, -, -, hcomplete⟩ := unassigned_exact_and_sufficient condition fully
  obtain ⟨hsame, hleft⟩ := hkeeps _ hmore hzone
  have htrue : condition.tree.holds fully = true := by decide
  exact ⟨hpartly, hfully, hmore, hsame, hleft.trans hpartly,
    (hcomplete hfully _ hmost).1.trans htrue⟩

end TemplateConditions
