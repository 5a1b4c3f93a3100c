import TemplateConditions.Condition.Equals

/-!
# Definitions

What the value of a declared condition says: a comparison, or a combination of other conditions by
name.  Reading a definition looks at nothing but that value, so whether the named conditions exist
is not decided here.
-/

namespace TemplateConditions

/-- The functions that combine conditions. -/
inductive Connective where
  | and
  | or
  | not
  deriving DecidableEq

namespace Connective

def function : Connective → String
  | .and => "Fn::And"
  | .or => "Fn::Or"
  | .not => "Fn::Not"

/-- May the connective take that many conditions? -/
def allows : Connective → Nat → Bool
  | .not, n => n == 1
  | _, n => 2 ≤ n

/-- The number of conditions that the connective takes, as messages put it. -/
def expectation : Connective → String
  | .not => "exactly one condition"
  | _ => "at least two conditions"

end Connective

/-- What a condition is declared to be. -/
inductive Definition where
  | comparison (clause : Clause)
  | combination (connective : Connective) (targets : List String)
  deriving DecidableEq

namespace Definition

/-- Why the argument of a combining function is refused. -/
inductive CombinationFault where
  | notASequence
  | arity (connective : Connective) (found : Nat)
  | itemKind (kind : String)
  | itemKeys (count : Nat)
  | itemTarget (kind : String)
  | itemFunction
  deriving DecidableEq

def CombinationFault.message : CombinationFault → String
  | .notASequence => "expected a sequence of conditions"
  | .arity connective found =>
    "expected " ++ connective.expectation ++ ", found " ++ Text.decimal found
  | .itemKind kind => "expected a Condition mapping, found " ++ kind
  | .itemKeys count => "Condition mapping must have exactly one key, found " ++ Text.decimal count
  | .itemTarget kind => "Condition name must be a string, found " ++ kind
  | .itemFunction => "child must be a \x7b\"Condition\": name\x7d reference"

/-- Why a definition is refused. -/
inductive Fault where
  | notAMapping (kind : String)
  | keyCount (count : Nat)
  | unsupported (function : String)
  | comparison (fault : Clause.Fault)
  | combination (connective : Connective) (fault : CombinationFault)
  deriving DecidableEq

/-- The name in `Condition`, the only way in which one condition names another. -/
def targetOfJson : Json → Except CombinationFault String
  | .object [("Condition", .string target)] => .ok target
  | .object [("Condition", other)] => .error (.itemTarget other.kind)
  | .object [_] => .error .itemFunction
  | .object members => .error (.itemKeys members.length)
  | other => .error (.itemKind other.kind)

/-- The targets of all items, or the fault of the first item that has one. -/
def targetsOfItems : List Json → Except CombinationFault (List String)
  | [] => .ok []
  | item :: rest => do
    let target ← targetOfJson item
    let targets ← targetsOfItems rest
    return target :: targets

/-- Reads the argument of a combining function; the number of items is checked before any item. -/
def targetsOfJson (connective : Connective) : Json → Except CombinationFault (List String)
  | .array items =>
    if connective.allows items.length then targetsOfItems items
    else .error (.arity connective items.length)
  | _ => .error .notASequence

/-- Reads a combination. -/
def combinationOfJson (connective : Connective) (argument : Json) : Except Fault Definition :=
  match targetsOfJson connective argument with
  | .ok targets => .ok (.combination connective targets)
  | .error fault => .error (.combination connective fault)

/-- Reads a function by its name and argument. -/
def ofFunction (function : String) (argument : Json) : Except Fault Definition :=
  if function = "Fn::Equals" then
    match Clause.ofJson argument with
    | .ok clause => .ok (.comparison clause)
    | .error fault => .error (.comparison fault)
  else if function = "Fn::And" then combinationOfJson .and argument
  else if function = "Fn::Or" then combinationOfJson .or argument
  else if function = "Fn::Not" then combinationOfJson .not argument
  else .error (.unsupported function)

/-- Reads a definition: an object whose only key names a function. -/
def ofJson : Json → Except Fault Definition
  | .object [(function, argument)] => ofFunction function argument
  | .object members => .error (.keyCount members.length)
  | other => .error (.notAMapping other.kind)

end Definition

end TemplateConditions
