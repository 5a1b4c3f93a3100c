import TemplateConditions.Condition.Clause

/-!
# The comparison grammar

`Fn::Equals` takes an array of two operands.  An operand is a literal (a string, a number or a
boolean) or a `Ref`, and one of the two has to be a `Ref`.
-/

namespace TemplateConditions.Clause

/-- Why the argument of an `Fn::Equals` is refused. -/
inductive Fault where
  | notASequence
  | notTwoOperands
  | nullOperand
  | sequenceOperand
  | operandKeys
  | operandFunction
  | operandTarget
  | noReference
  deriving DecidableEq

def Fault.message : Fault → String
  | .notASequence => "expected a sequence of two operands"
  | .notTwoOperands => "expected exactly two operands"
  | .nullOperand => "operand is null"
  | .sequenceOperand => "operand is a sequence"
  | .operandKeys => "operand mapping must have exactly one key"
  | .operandFunction => "only Ref is supported inside Fn::Equals"
  | .operandTarget => "Ref value must be a string"
  | .noReference => "neither operand is a Ref"

/-- One side of a comparison. -/
inductive Operand where
  | literal (text : String)
  | reference (target : Reference)
  deriving DecidableEq

/-- Reads an operand; numbers and booleans count as their JSON text, and an object has to be a
reference. -/
def Operand.ofJson (json : Json) : Except Fault Operand :=
  match json with
  | .string text => .ok (.literal text)
  | .number n => .ok (.literal n.text)
  | .bool value => .ok (.literal (Json.bool value).compact)
  | .null => .error .nullOperand
  | .array _ => .error .sequenceOperand
  | .object members =>
    match Reference.ofJson? json, members with
    | some target, _ => .ok (.reference target)
    | none, [("Ref", _)] => .error .operandTarget
    | none, [_] => .error .operandFunction
    | none, _ => .error .operandKeys

/-- The subject is the left reference if there is one, else the right. -/
def ofOperands : Operand → Operand → Except Fault Clause
  | .reference subject, .reference other => .ok ⟨subject.token, .reference other.token⟩
  | .reference subject, .literal text => .ok ⟨subject.token, .literal text⟩
  | .literal text, .reference subject => .ok ⟨subject.token, .literal text⟩
  | .literal _, .literal _ => .error .noReference

/-- Reads the argument of an `Fn::Equals`; of two faulty operands the left one is reported. -/
def ofJson : Json → Except Fault Clause
  | .array [left, right] => do ofOperands (← Operand.ofJson left) (← Operand.ofJson right)
  | .array _ => .error .notTwoOperands
  | _ => .error .notASequence

/-- The comparison, if the argument is accepted. -/
def parse? (json : Json) : Option Clause :=
  match ofJson json with
  | .ok clause => some clause
  | .error _ => none

/-- Why the argument is refused, if it is. -/
def rejection? (json : Json) : Option String :=
  match ofJson json with
  | .ok _ => none
  | .error fault => some fault.message

end TemplateConditions.Clause
