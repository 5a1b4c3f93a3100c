import TemplateConditions.Proofs.Resolution.Trees

/-!
# The equations of a template

The truth values of all conditions in a scenario solve the equations that the definitions state
between their names: what a condition combines inside its own tree has the values that the names
have by themselves.
-/

namespace TemplateConditions

variable {definitions : Definitions}

/-! ## Values by name -/

theorem keys_evaluate (definitions : Definitions) (limit : Nat) (scenario : Scenario) :
    ((ConditionSet.ofDefinitions definitions limit).evaluate scenario).map Prod.fst =
      definitions.map Prod.fst := by
  have hlength : (definitions.map Prod.fst).length ≤ ((definitions.map Prod.fst).map fun name =>
      (Condition.resolve definitions limit name).1).length := by
    rw [List.length_map (fun name => (Condition.resolve definitions limit name).1)]
  rw [ConditionSet.evaluate, List.map_map, conditions_ofDefinitions]
  exact List.map_fst_zip hlength

theorem find?_evaluate (definitions : Definitions) (limit : Nat) (scenario : Scenario)
    (name : String) :
    Ordered.find? name ((ConditionSet.ofDefinitions definitions limit).evaluate scenario) =
      if definitions.declares name then
        some ((Condition.resolve definitions limit name).1.tree.holds scenario)
      else none := by
  have hvalue : Ordered.find? name
      ((ConditionSet.ofDefinitions definitions limit).evaluate scenario) =
        ((ConditionSet.ofDefinitions definitions limit).get? name).map fun condition =>
          condition.tree.holds scenario :=
    Ordered.find?_map (fun condition : Resolved => condition.tree.holds scenario) name _
  rw [hvalue, get?_ofDefinitions]
  by_cases hname : definitions.declares name = true
  · rw [if_pos hname, if_pos hname, Option.map_some]
  · rw [if_neg hname, if_neg hname, Option.map_none]

/-- A resolved tree is what its name is declared to be, or an empty condition. -/
theorem resolve_agrees (definitions : Definitions) (limit : Nat) (name : String) :
    (Condition.resolve definitions limit name).1.tree.Agrees definitions ∨
      (Condition.resolve definitions limit name).1.tree = .empty name := by
  obtain ⟨_, hunfolded, _⟩ | ⟨hempty, _⟩ := resolve_standsFor definitions limit name
  · exact .inl hunfolded.agrees
  · exact .inr hempty

/-- The value of a child inside the tree is the value that its name has by itself. -/
theorem find?_evaluate_child {limit : Nat} {name : String} {child : Condition}
    (scenario : Scenario)
    (hchild : child ∈ (Condition.resolve definitions limit name).1.tree.children) :
    Ordered.find? child.name ((ConditionSet.ofDefinitions definitions limit).evaluate scenario) =
      some (child.holds scenario) := by
  -- Only declared names are combined, so the child has an entry of its own.
  have hdeclared : definitions.declares child.name = true := by
    obtain hagrees | hempty := resolve_agrees definitions limit name
    · obtain ⟨connective, hcombines⟩ := hagrees.combines hchild
      exact hcombines.declared _ (List.mem_map_of_mem hchild)
    · rw [hempty] at hchild
      exact absurd hchild List.not_mem_nil
  rw [find?_evaluate, if_pos hdeclared, resolve_node (Condition.isNode_of_mem_children hchild)]

/-! ## Equations -/

/-- The values solve the equation of a condition.  A comparison is true if the scenario assigns its
subject the comparand.  A combination lists the targets of its definition, which all have values,
and combines these values; and an empty condition is false. -/
def Condition.Solved (definitions : Definitions) (scenario : Scenario)
    (values : List (String × Bool)) : Condition → Prop
  | .equals name clause =>
    Ordered.find? name values = some (decide (scenario.get? clause.subject = some clause.comparand))
  | .and name children =>
    ∃ targets, Ordered.find? name definitions = some (Definition.combinationToJson .and targets) ∧
      children.map Condition.name = targets ∧
      (∀ target ∈ targets, target ∈ values.map Prod.fst) ∧
      Ordered.find? name values =
        some (targets.all fun target => Ordered.find? target values == some true)
  | .or name children =>
    ∃ targets, Ordered.find? name definitions = some (Definition.combinationToJson .or targets) ∧
      children.map Condition.name = targets ∧
      (∀ target ∈ targets, target ∈ values.map Prod.fst) ∧
      Ordered.find? name values =
        some (targets.any fun target => Ordered.find? target values == some true)
  | .not name child =>
    ∃ target, Ordered.find? name definitions = some (Definition.combinationToJson .not [target]) ∧
      child.name = target ∧
      ∃ value, Ordered.find? target values = some value ∧
        Ordered.find? name values = some (!value)
  | .empty name => Ordered.find? name values = some false

theorem Condition.allHold_eq_targets {children : List Condition} {scenario : Scenario}
    {values : List (String × Bool)}
    (h : ∀ child ∈ children, Ordered.find? child.name values = some (child.holds scenario)) :
    allHold scenario children =
      (children.map Condition.name).all fun target => Ordered.find? target values == some true := by
  rw [allHold_eq, List.all_map, Bool.eq_iff_iff, List.all_eq_true, List.all_eq_true]
  refine forall₂_congr fun child hchild => ?_
  rw [Function.comp_apply, h child hchild]
  cases child.holds scenario <;> simp

theorem Condition.anyHolds_eq_targets {children : List Condition} {scenario : Scenario}
    {values : List (String × Bool)}
    (h : ∀ child ∈ children, Ordered.find? child.name values = some (child.holds scenario)) :
    anyHolds scenario children =
      (children.map Condition.name).any fun target => Ordered.find? target values == some true := by
  rw [anyHolds_eq, List.any_map, Bool.eq_iff_iff, List.any_eq_true, List.any_eq_true]
  refine exists_congr fun child => and_congr_right fun hchild => ?_
  rw [Function.comp_apply, h child hchild]
  cases child.holds scenario <;> simp

/-- A tree has the value of its equation if its children have their own values. -/
theorem Condition.solved_of_children {tree : Condition} {scenario : Scenario}
    {values : List (String × Bool)} (hagrees : tree.Agrees definitions ∨ tree = .empty tree.name)
    (hvalue : Ordered.find? tree.name values = some (tree.holds scenario))
    (hchildren : ∀ child ∈ tree.children,
      Ordered.find? child.name values = some (child.holds scenario)) :
    tree.Solved definitions scenario values := by
  have hkeys : ∀ target ∈ tree.children.map Condition.name, target ∈ values.map Prod.fst := by
    intro target htarget
    obtain ⟨child, hchild, rfl⟩ := List.mem_map.1 htarget
    rw [← Ordered.find?_isSome, hchildren child hchild, Option.isSome_some]
  cases tree with
  | equals name clause =>
    rw [Condition.holds] at hvalue
    exact hvalue
  | and name children =>
    obtain hcombines | hempty := hagrees
    · refine ⟨_, hcombines.written, rfl, hkeys, ?_⟩
      have hjoined := Condition.allHold_eq_targets (show ∀ child ∈ children, _ from hchildren)
      rw [Condition.holds, hjoined] at hvalue
      exact hvalue
    · exact absurd hempty (by simp)
  | or name children =>
    obtain hcombines | hempty := hagrees
    · refine ⟨_, hcombines.written, rfl, hkeys, ?_⟩
      have hjoined := Condition.anyHolds_eq_targets (show ∀ child ∈ children, _ from hchildren)
      rw [Condition.holds, hjoined] at hvalue
      exact hvalue
    · exact absurd hempty (by simp)
  | not name child =>
    obtain hcombines | hempty := hagrees
    · rw [Condition.holds] at hvalue
      exact ⟨_, hcombines.written, rfl, _, hchildren child List.mem_cons_self, hvalue⟩
    · exact absurd hempty (by simp)
  | empty name =>
    rw [Condition.holds] at hvalue
    exact hvalue

/-! ## Main results -/

/-- The truth values of all conditions in a scenario are the values of the declared names, and solve
the equation of each of them. -/
theorem evaluate_solves_equations (definitions : Definitions) (limit : Nat)
    (scenario : Scenario) :
    let set := ConditionSet.ofDefinitions definitions limit
    (set.evaluate scenario).map Prod.fst = definitions.map Prod.fst ∧
    ∀ name, definitions.declares name = true →
      ∃ condition, set.get? name = some condition ∧ condition.tree.name = name ∧
        condition.tree.Solved definitions scenario (set.evaluate scenario) := by
  intro set
  refine ⟨keys_evaluate definitions limit scenario, fun name hname => ?_⟩
  have hvalue := find?_evaluate definitions limit scenario name
  rw [if_pos hname] at hvalue
  have htree := (resolve_standsFor definitions limit name).name_eq
  refine ⟨_, get?_eq_some_iff.2 ⟨hname, rfl⟩, htree, Condition.solved_of_children ?_ ?_ ?_⟩
  · rw [htree]
    exact resolve_agrees definitions limit name
  · rw [htree]
    exact hvalue
  · exact fun child hchild => find?_evaluate_child scenario hchild

/-- The equation of a negation, in the scenario without assignments. -/
theorem evaluate_dev :
    let set := ConditionSet.ofDefinitions prodAndDev 2
    ∃ condition, set.get? "Dev" = some condition ∧ condition.tree.name = "Dev" ∧
      condition.tree.Solved prodAndDev ∅ (set.evaluate ∅) :=
  (evaluate_solves_equations prodAndDev 2 ∅).2 "Dev" (by decide)

end TemplateConditions
