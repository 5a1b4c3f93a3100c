import TemplateConditions.Condition.Definition

/-!
# Findings

What resolution had to give up, and why.  A finding is a report about a condition and never an
error: resolution always returns a condition.
-/

namespace TemplateConditions

inductive Finding where
  | unknownCondition (name : String)
  | notAFunction (name found : String)
  | unsupportedFunction (name function : String)
  | malformedEquals (name reason : String)
  | malformedCombinator (name function reason : String)
  | danglingReference (name target : String)
  | circularReference (path : List String)
  | depthExceeded (name : String) (limit : Nat)
  | degraded (name : String) (cause : Finding)
  deriving DecidableEq, Hashable

namespace Finding

/-- The finding for a definition that is refused. -/
def ofFault (name : String) : Definition.Fault → Finding
  | .notAMapping kind => .notAFunction name ("a " ++ kind)
  | .keyCount count => .notAFunction name ("a mapping with " ++ Text.decimal count ++ " keys")
  | .unsupported function => .unsupportedFunction name function
  | .comparison fault => .malformedEquals name fault.message
  | .combination connective fault => .malformedCombinator name connective.function fault.message

/-- The finding in words. -/
def message : Finding → String
  | .unknownCondition name => "Condition '" ++ name ++ "' is not defined"
  | .notAFunction name found =>
    "Condition '" ++ name ++ "' must be a single-key function mapping, found " ++ found
  | .unsupportedFunction name function =>
    "Condition '" ++ name ++ "' uses unsupported function " ++ function
  | .malformedEquals name reason =>
    "Condition '" ++ name ++ "' has a malformed Fn::Equals: " ++ reason
  | .malformedCombinator name function reason =>
    "Condition '" ++ name ++ "' has a malformed " ++ function ++ ": " ++ reason
  | .danglingReference name target =>
    "Condition '" ++ name ++ "' references undefined condition '" ++ target ++ "'"
  | .circularReference path => "Circular condition reference: " ++ " -> ".intercalate path
  | .depthExceeded name limit =>
    "Condition '" ++ name ++ "' exceeds the maximum nesting depth of " ++ Text.decimal limit
  | .degraded name cause => "Condition '" ++ name ++ "' is empty: " ++ cause.message

/-- The condition that the finding is about: of a cycle, the one its path starts with. -/
def condition : Finding → String
  | .unknownCondition name => name
  | .notAFunction name _ => name
  | .unsupportedFunction name _ => name
  | .malformedEquals name _ => name
  | .malformedCombinator name _ _ => name
  | .danglingReference name _ => name
  | .circularReference path => path.headD ""
  | .depthExceeded name _ => name
  | .degraded name _ => name

/-- Does the finding explain the state of the condition `name`?  A cycle concerns every condition
on it. -/
def concerns (finding : Finding) (name : String) : Bool :=
  match finding with
  | .circularReference path => path.contains name
  | other => other.condition == name

/-- The finding as an object, whose `kind` says which finding it is. -/
def toJson : Finding → Json
  | .unknownCondition name =>
    .object [("kind", .string "unknown_condition"), ("name", .string name)]
  | .notAFunction name found =>
    .object [("found", .string found), ("kind", .string "not_a_function"), ("name", .string name)]
  | .unsupportedFunction name function =>
    .object [("function", .string function), ("kind", .string "unsupported_function"),
      ("name", .string name)]
  | .malformedEquals name reason =>
    .object [("kind", .string "malformed_equals"), ("name", .string name),
      ("reason", .string reason)]
  | .malformedCombinator name function reason =>
    .object [("function", .string function), ("kind", .string "malformed_combinator"),
      ("name", .string name), ("reason", .string reason)]
  | .danglingReference name target =>
    .object [("kind", .string "dangling_reference"), ("name", .string name),
      ("target", .string target)]
  | .circularReference path =>
    .object [("kind", .string "circular_reference"), ("path", .array (path.map .string))]
  | .depthExceeded name limit =>
    .object [("kind", .string "depth_exceeded"), ("limit", .natural limit), ("name", .string name)]
  | .degraded name cause =>
    .object [("cause", cause.toJson), ("kind", .string "degraded"), ("name", .string name)]

end Finding

end TemplateConditions
