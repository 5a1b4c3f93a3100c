import TemplateConditions.Condition.Resolution

/-!
# The conditions of a template

All declared conditions, resolved in key order in one session, so that trees are shared and each
finding is recorded once.
-/

namespace TemplateConditions

structure ConditionSet where
  conditions : List (String × Resolved)
  findings : List Finding

namespace ConditionSet

/-- Resolves every declared condition. -/
def ofDefinitions (definitions : Definitions) (limit : Nat) : ConditionSet :=
  let names := definitions.map Prod.fst
  let (session, conditions) := Session.resolveAll definitions limit {} names
  ⟨names.zip conditions, session.findings⟩

def names (set : ConditionSet) : List String :=
  set.conditions.map Prod.fst

def size (set : ConditionSet) : Nat :=
  set.conditions.length

def get? (set : ConditionSet) (name : String) : Option Resolved :=
  Ordered.find? name set.conditions

/-- The findings that explain the state of one condition. -/
def findingsFor (set : ConditionSet) (name : String) : List Finding :=
  set.findings.filter fun finding => finding.concerns name

/-- The comparisons of all conditions. -/
def influence (set : ConditionSet) : Influence :=
  set.conditions.foldl (fun map entry => map.merge entry.2.influence) .empty

/-- The truth value of every condition in a scenario. -/
def evaluate (set : ConditionSet) (scenario : Scenario) : List (String × Bool) :=
  set.conditions.map fun entry => (entry.1, entry.2.tree.holds scenario)

end ConditionSet

end TemplateConditions
