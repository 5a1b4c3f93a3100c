import TemplateConditions.Condition.Tree

/-!
# Resolved conditions

A tree with its influence map.  A tree is built from finished trees, which may stand in it many
times over, so that the same map would be gathered again and again, as often as there are paths
through the tree.  Here the map of a tree is joined from those of its children, once.
-/

namespace TemplateConditions

structure Resolved where
  tree : Condition
  influence : Influence
  influence_eq : influence = tree.influence

namespace Resolved

/-- A condition is known by its tree alone. -/
theorem ext_tree {a b : Resolved} (h : a.tree = b.tree) : a = b := by
  obtain ⟨tree, influence, rfl⟩ := a
  obtain ⟨other, influence, rfl⟩ := b
  cases h
  rfl

/-- A condition without a meaning. -/
def empty (name : String) : Resolved :=
  ⟨.empty name, .empty, by simp only [Condition.influence]⟩

def equals (name : String) (clause : Clause) : Resolved :=
  ⟨.equals name clause, .single clause, by simp only [Condition.influence]⟩

/-- The comparisons of several conditions. -/
def mergedInfluence : List Resolved → Influence
  | [] => .empty
  | child :: rest => child.influence.merge (mergedInfluence rest)

theorem mergedInfluence_eq (children : List Resolved) :
    mergedInfluence children = Condition.mergedInfluence (children.map tree) := by
  induction children with
  | nil => simp only [mergedInfluence, List.map_nil, Condition.mergedInfluence]
  | cons child rest ih =>
    simp only [mergedInfluence, List.map_cons, Condition.mergedInfluence, ih, child.influence_eq]

/-- The condition that joins `children` with a connective. -/
def combine (name : String) : Connective → List Resolved → Resolved
  | .and, children =>
    ⟨.and name (children.map tree), mergedInfluence children, by
      simp only [Condition.influence, mergedInfluence_eq]⟩
  | .or, children =>
    ⟨.or name (children.map tree), mergedInfluence children, by
      simp only [Condition.influence, mergedInfluence_eq]⟩
  | .not, [child] =>
    ⟨.not name child.tree, child.influence, by
      simp only [Condition.influence, child.influence_eq]⟩
  | .not, _ => empty name

theorem tree_combine (name : String) (connective : Connective) (children : List Resolved) :
    (combine name connective children).tree =
      Condition.combine name connective (children.map tree) := by
  match connective, children with
  | .and, _ => rfl
  | .or, _ => rfl
  | .not, [] => rfl
  | .not, [_] => rfl
  | .not, _ :: _ :: _ => rfl

/-- The tokens that the tree compares and the scenario does not assign. -/
def unassigned (condition : Resolved) (scenario : Scenario) : List Token :=
  scenario.unassigned condition.influence.tokens

end Resolved

end TemplateConditions
