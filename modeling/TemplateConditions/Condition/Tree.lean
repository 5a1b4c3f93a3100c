import TemplateConditions.Condition.Definition
import TemplateConditions.Condition.Influence
import TemplateConditions.Condition.Scenario

/-!
# Condition trees

A resolved condition: every node carries the name under which it is declared.  A tree has a truth
value in every scenario, and an influence map that lists its comparisons.
-/

namespace TemplateConditions

inductive Condition where
  | equals (name : String) (clause : Clause)
  | and (name : String) (children : List Condition)
  | or (name : String) (children : List Condition)
  | not (name : String) (child : Condition)
  | empty (name : String)
  deriving BEq, Inhabited

namespace Condition

def name : Condition → String
  | .equals name _ => name
  | .and name _ => name
  | .or name _ => name
  | .not name _ => name
  | .empty name => name

/-- The same condition under another name. -/
def rename (name : String) : Condition → Condition
  | .equals _ clause => .equals name clause
  | .and _ children => .and name children
  | .or _ children => .or name children
  | .not _ child => .not name child
  | .empty _ => .empty name

/-- The kind of a condition, as listings name it. -/
def label : Condition → String
  | .equals _ _ => "Fn::Equals"
  | .and _ _ => "Fn::And"
  | .or _ _ => "Fn::Or"
  | .not _ _ => "Fn::Not"
  | .empty _ => "empty"

def isEmpty : Condition → Bool
  | .empty _ => true
  | _ => false

def children : Condition → List Condition
  | .and _ children => children
  | .or _ children => children
  | .not _ child => [child]
  | _ => []

def clause? : Condition → Option Clause
  | .equals _ clause => some clause
  | _ => none

/-- The condition that joins `children` with a connective.  A negation takes exactly one. -/
def combine (name : String) : Connective → List Condition → Condition
  | .and, children => .and name children
  | .or, children => .or name children
  | .not, [child] => .not name child
  | .not, _ => .empty name

end Condition

/-- Does the scenario give the subject the value that the clause compares it with? -/
def Clause.holds (scenario : Scenario) (clause : Clause) : Bool :=
  scenario.get? clause.subject = some clause.comparand

namespace Condition

/-! ## Truth -/

mutual

/-- The truth value in a scenario; an empty condition is false. -/
def holds (scenario : Scenario) : Condition → Bool
  | .equals _ clause => clause.holds scenario
  | .and _ children => allHold scenario children
  | .or _ children => anyHolds scenario children
  | .not _ child => !child.holds scenario
  | .empty _ => false

def allHold (scenario : Scenario) : List Condition → Bool
  | [] => true
  | child :: rest => child.holds scenario && allHold scenario rest

def anyHolds (scenario : Scenario) : List Condition → Bool
  | [] => false
  | child :: rest => child.holds scenario || anyHolds scenario rest

end

theorem allHold_eq (scenario : Scenario) (children : List Condition) :
    allHold scenario children = children.all (holds scenario) := by
  induction children with
  | nil => rfl
  | cons child rest ih => simp only [allHold, List.all_cons, ih]

theorem anyHolds_eq (scenario : Scenario) (children : List Condition) :
    anyHolds scenario children = children.any (holds scenario) := by
  induction children with
  | nil => rfl
  | cons child rest ih => simp only [anyHolds, List.any_cons, ih]

/-! ## Influence -/

mutual

/-- The comparisons of the tree. -/
def influence : Condition → Influence
  | .equals _ clause => .single clause
  | .and _ children => mergedInfluence children
  | .or _ children => mergedInfluence children
  | .not _ child => child.influence
  | .empty _ => .empty

def mergedInfluence : List Condition → Influence
  | [] => .empty
  | child :: rest => child.influence.merge (mergedInfluence rest)

end

/-! ## Outline -/

mutual

/-- The nodes from the root downwards, each before its children, with their depths. -/
def outline (depth : Nat) : Condition → List (Nat × Condition)
  | .equals name clause => [(depth, .equals name clause)]
  | .and name children => (depth, .and name children) :: outlines (depth + 1) children
  | .or name children => (depth, .or name children) :: outlines (depth + 1) children
  | .not name child => (depth, .not name child) :: child.outline (depth + 1)
  | .empty name => [(depth, .empty name)]

def outlines (depth : Nat) : List Condition → List (Nat × Condition)
  | [] => []
  | child :: rest => child.outline depth ++ outlines depth rest

end

/-- The line that shows a node by itself. -/
def headline : Condition → String
  | .equals name clause => name ++ ": " ++ clause.text
  | .empty name => name ++ ": <empty>"
  | other => other.name ++ ": " ++ other.label

/-- The tree as lines, indented by two blanks a level. -/
def render (condition : Condition) : String :=
  String.join ((condition.outline 0).map fun (depth, node) =>
    String.ofList (List.replicate (2 * depth) ' ') ++ node.headline ++ "\n")

end Condition

end TemplateConditions
