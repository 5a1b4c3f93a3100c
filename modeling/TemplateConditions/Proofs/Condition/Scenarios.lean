import TemplateConditions.Proofs.Condition.Influence
import TemplateConditions.Proofs.Ordered.Entries

/-!
# Assigned and unassigned tokens

A scenario holds for each token the value that was assigned to it last, so that assignments to
different tokens may be made in any order.  The tokens that a condition compares are listed in
strictly ascending order, and so are those among them that a scenario leaves without a value.
-/

namespace TemplateConditions

/-! ## Assignments -/

namespace Scenario

/-- The tokens of assignments, with the values that they are assigned. -/
def pairs (assignments : List Assignment) : List (Token × Comparand) :=
  assignments.map fun assignment => (assignment.target.token, assignment.value)

/-- A token has the value of its last assignment, or the one that it had before. -/
theorem get?_extend (scenario : Scenario) (assignments : List Assignment) (token : Token) :
    (scenario.extend assignments).get? token =
      (Ordered.last? token (pairs assignments)).or (scenario.get? token) := by
  induction assignments generalizing scenario with
  | nil => rfl
  | cons assignment rest ih =>
    show ((scenario.assign assignment.target.token assignment.value).extend rest).get? token =
      (Ordered.last? token ((assignment.target.token, assignment.value) :: pairs rest)).or _
    rw [ih, get?_assign, Ordered.last?, Option.or_assoc]
    by_cases h : token = assignment.target.token
    · rw [if_pos h, if_pos h, Option.some_or]
    · rw [if_neg h, if_neg h, Option.none_or]

/-- Assignments to different tokens may be made in any order. -/
theorem extend_congr (scenario : Scenario) {assignments others : List Assignment}
    (h : assignments.Perm others)
    (hdistinct : (assignments.map fun assignment => assignment.target.token).Nodup) :
    scenario.extend assignments = scenario.extend others := by
  have hkeys : ((pairs assignments).map Prod.fst).Nodup := by
    rw [pairs, List.map_map]
    exact hdistinct
  have hpairs : (pairs assignments).Perm (pairs others) := h.map _
  refine Ordered.Map.ext_get? fun token => ?_
  rw [get?_extend, get?_extend, Ordered.last?_congr hpairs hkeys]

end Scenario

/-! ## Tokens of an influence map -/

namespace Influence

/-- Every group has the subject of some clause. -/
theorem exists_subject_of_mem_group {clauses : List Clause} {token : Token}
    (h : token ∈ (group clauses).map Prod.fst) :
    ∃ clause ∈ clauses, clause.subject = token := by
  induction clauses with
  | nil => exact absurd h List.not_mem_nil
  | cons clause rest ih =>
    unfold group at h
    split at h
    · rw [List.mem_singleton.1 h]
      exact ⟨clause, List.mem_cons_self, rfl⟩
    · rename_i first values groups hgroup
      rw [hgroup] at ih
      split at h
      · obtain ⟨other, hother, hsubject⟩ := ih h
        exact ⟨other, List.mem_cons_of_mem clause hother, hsubject⟩
      · rcases List.mem_cons.1 h with rfl | hrest
        · exact ⟨clause, List.mem_cons_self, rfl⟩
        · obtain ⟨other, hother, hsubject⟩ := ih hrest
          exact ⟨other, List.mem_cons_of_mem clause hother, hsubject⟩

theorem pairwise_group {clauses : List Clause}
    (h : clauses.Pairwise fun a b => compare a b = .lt) :
    ((group clauses).map Prod.fst).Pairwise fun a b => compare a b = .lt := by
  induction clauses with
  | nil => exact List.Pairwise.nil
  | cons clause rest ih =>
    obtain ⟨hfirst, hrest⟩ := List.pairwise_cons.1 h
    cases rest with
    | nil => exact List.pairwise_singleton _ _
    | cons next rest =>
      have hgroups := ih hrest
      obtain ⟨values, groups, hgroup⟩ := group_cons next rest
      rw [group_cons_cons hgroup clause]
      rw [hgroup] at hgroups
      by_cases hnext : clause.subject = next.subject
      · -- The clause joins the first group.
        rw [if_pos hnext]
        exact hgroups
      · rw [if_neg hnext]
        refine List.pairwise_cons.2 ⟨fun token htoken => ?_, hgroups⟩
        -- The clause comes before all others, and none of them has its subject.
        rw [← hgroup] at htoken
        obtain ⟨other, hother, rfl⟩ := exists_subject_of_mem_group htoken
        exact Clause.subject_lt_of_ne (hfirst other hother)
          (Clause.subject_ne_of_next h hnext other hother).symm

theorem pairwise_tokens (map : Influence) :
    map.tokens.Pairwise fun a b => compare a b = .lt :=
  pairwise_group map.clauses.ascending

/-- The tokens are the subjects of the comparisons. -/
theorem mem_tokens {map : Influence} {token : Token} :
    token ∈ map.tokens ↔ ∃ value, (⟨token, value⟩ : Clause) ∈ map.clauses := by
  constructor
  · intro h
    obtain ⟨⟨subject, value⟩, hclause, rfl⟩ := exists_subject_of_mem_group h
    exact ⟨value, hclause⟩
  · rintro ⟨value, hclause⟩
    -- What is found under the token stands in an entry of it.
    obtain ⟨values, hvalues, _⟩ := exists_get?_iff.2 hclause
    obtain ⟨entry, hentry, _⟩ := Option.map_eq_some_iff.1 hvalues
    have htoken : entry.1 = token := by simpa using List.find?_some hentry
    rw [← htoken]
    exact List.mem_map_of_mem (List.mem_of_find?_eq_some hentry)

end Influence

/-! ## Unassigned tokens -/

theorem Scenario.contains_eq_false_iff {scenario : Scenario} {token : Token} :
    scenario.contains token = false ↔ scenario.get? token = none := by
  rw [Ordered.Map.contains, Option.isSome_eq_false_iff, Option.isNone_iff_eq_none]

namespace Resolved

variable {condition : Resolved} {scenario : Scenario}

theorem pairwise_unassigned (condition : Resolved) (scenario : Scenario) :
    (condition.unassigned scenario).Pairwise fun a b => compare a b = .lt :=
  condition.influence.pairwise_tokens.filter _

/-- A token is unassigned if some leaf compares it and the scenario has no value for it. -/
theorem mem_unassigned {token : Token} :
    token ∈ condition.unassigned scenario ↔
      scenario.get? token = none ∧ ∃ name value,
        (Condition.equals name ⟨token, value⟩).IsNode condition.tree := by
  rw [unassigned, Scenario.unassigned, List.mem_filter, Influence.mem_tokens,
    condition.influence_eq, Bool.not_eq_true', Scenario.contains_eq_false_iff, and_comm]
  simp only [Condition.mem_influence_iff]
  rw [exists_comm]

end Resolved

end TemplateConditions
