import TemplateConditions.Condition.Clause
import TemplateConditions.Ordered.Map
import TemplateConditions.Text.Split

/-!
# Scenarios

One hypothetical world: the value that each reference is assumed to have.  An assignment is the
text `NAME=VALUE`, or `NAME=@OTHER` for the value of another reference.
-/

namespace TemplateConditions

/-- The values that are assumed, by token. -/
abbrev Scenario := Ordered.Map Token Comparand

namespace Scenario

/-- Assumes a value; an earlier one for the same token is forgotten. -/
def assign (scenario : Scenario) (token : Token) (value : Comparand) : Scenario :=
  scenario.insert token value

/-- Assumes a value for the reference with the given name. -/
def assignName (scenario : Scenario) (name : String) (value : Comparand) : Scenario :=
  scenario.assign (Token.ofName name) value

/-- Those of the tokens that have no value. -/
def unassigned (scenario : Scenario) (tokens : List Token) : List Token :=
  tokens.filter fun token => !scenario.contains token

end Scenario

/-- A reference and the value it is set to. -/
structure Assignment where
  target : Reference
  value : Comparand
  deriving DecidableEq

namespace Assignment

/-- Why a text is no assignment; each fault carries the whole text. -/
inductive Fault where
  | noEqualsSign (text : String)
  | noName (text : String)
  | noReferenceName (text : String)
  deriving DecidableEq

def Fault.message : Fault → String
  | .noEqualsSign text => "expected NAME=VALUE, got '" ++ text ++ "'"
  | .noName text => "missing parameter name in '" ++ text ++ "'"
  | .noReferenceName text => "missing reference name in '" ++ text ++ "'"

/-- Reads an assignment.  Blanks around the name are dropped, and nothing of the value is. -/
def ofText (text : String) : Except Fault Assignment :=
  match Text.splitAt? '=' text.toList with
  | none => .error (.noEqualsSign text)
  | some (before, after) =>
    match Text.trim (String.ofList before), after with
    | "", _ => .error (.noName text)
    | _, ['@'] => .error (.noReferenceName text)
    | name, '@' :: other => .ok ⟨⟨name⟩, .reference (Token.ofName (String.ofList other))⟩
    | name, literal => .ok ⟨⟨name⟩, .literal (String.ofList literal)⟩

end Assignment

/-- Assumes the assignments from first to last. -/
def Scenario.extend (scenario : Scenario) (assignments : List Assignment) : Scenario :=
  assignments.foldl (fun s a => s.assign a.target.token a.value) scenario

end TemplateConditions
