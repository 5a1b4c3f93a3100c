import TemplateConditions.Json.Printer
import TemplateConditions.Text.Split
import TemplateConditions.Yaml.Value

/-!
# Short forms

In YAML a tag is the short form of a function: `!Equals [a, b]` means the mapping of `Fn::Equals` to
that sequence.  Turning a YAML value into JSON writes every short form out, and needs keys that have
a text.  `expand` writes the short forms out and stays in YAML.
-/

namespace TemplateConditions

/-- The name of a tag without all the exclamation marks in front. -/
def shortName (tag : String) : String :=
  String.ofList (tag.toList.dropWhile (· = '!'))

/-- The function that a short name stands for. -/
def functionName (name : String) : String :=
  if name = "Ref" ∨ name = "Condition" then name else "Fn::" ++ name

/-- The resource and the property in the text of a `GetAtt`, divided by the first point. -/
def attributePath? (name text : String) : Option (String × String) :=
  if name = "GetAtt" then
    (Text.splitAt? '.' text.toList).map fun (resource, property) =>
      (String.ofList resource, String.ofList property)
  else none

/-- The argument of a function in long form. -/
def longArgument (name : String) : Json → Json
  | .string text =>
    match attributePath? name text with
    | some (resource, property) => .array [.string resource, .string property]
    | none => .string text
  | value => value

namespace Yaml

namespace Number

/-- The integer that signed 64 bits hold. -/
def signed? : Number → Option Int
  | .int value => if -(power 2 63 : Int) ≤ value ∧ value < power 2 63 then some value else none
  | _ => none

/-- The natural number that 64 bits hold. -/
def unsigned? : Number → Option Nat
  | .int value => if 0 ≤ value ∧ value < power 2 64 then some value.toNat else none
  | _ => none

/-- The float, if it is finite. -/
def finite? : Number → Option Binary64
  | .float value => some value
  | _ => none

/-- A signed integer comes before a natural number, and both before a float.  Infinities and NaN
have no JSON number, and become their text. -/
def toJson (number : Number) : Json :=
  match number.signed?, number.unsigned?, number.finite? with
  | some value, _, _ => .number (.int value)
  | none, some value, _ => Json.natural value
  | none, none, some value => .number (.float value)
  | none, none, none => .string number.text

end Number

namespace Value

/-- The text of a key; strings, booleans and numbers have one. -/
def keyText? : Value → Option String
  | .string value => some value
  | .bool value => some (if value then "true" else "false")
  | .number value => some value.text
  | _ => none

mutual

/-- The value in JSON, with short forms written out, or the first key without a text.  A key comes
before its own value. -/
def toJson : Value → Except Value Json
  | .null => .ok .null
  | .bool value => .ok (.bool value)
  | .number value => .ok value.toJson
  | .string value => .ok (.string value)
  | .sequence items => do return .array (← itemsToJson items)
  | .mapping entries => do return Json.ofMembers (← entriesToJson entries)
  | .tagged tag content => do
    let name := shortName tag
    return .object [(functionName name, longArgument name (← content.toJson))]

def itemsToJson : List Value → Except Value (List Json)
  | [] => .ok []
  | item :: rest => do return (← item.toJson) :: (← itemsToJson rest)

def entriesToJson : List (Value × Value) → Except Value Members
  | [] => .ok []
  | (key, value) :: rest =>
    match key.keyText? with
    | some text => do return (text, ← value.toJson) :: (← entriesToJson rest)
    | none => .error key

end

/-- The argument of a short form in YAML; `content` is the value that it is written with, and
`expanded` the same value with its own short forms written out. -/
def expandedArgument (name : String) (content expanded : Value) : Value :=
  match content.toJson with
  | .ok (.string text) =>
    match attributePath? name text with
    | some (resource, property) => .sequence [.string resource, .string property]
    | none => expanded
  | _ => expanded

mutual

/-- The value with all short forms outside keys written out. -/
def expand : Value → Value
  | .sequence items => .sequence (expandItems items)
  | .mapping entries => .mapping (expandEntries entries)
  | .tagged tag content =>
    let name := shortName tag
    .mapping [(.string (functionName name), expandedArgument name content content.expand)]
  | value => value

def expandItems : List Value → List Value
  | [] => []
  | item :: rest => item.expand :: expandItems rest

def expandEntries : List (Value × Value) → List (Value × Value)
  | [] => []
  | (key, value) :: rest => (key, value.expand) :: expandEntries rest

end

end Value

end Yaml

end TemplateConditions
