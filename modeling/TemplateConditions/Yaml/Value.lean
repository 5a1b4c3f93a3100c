import TemplateConditions.Number.Layout
import TemplateConditions.Text.Quoted

/-!
# YAML values

The data of a YAML document once tags, anchors and plain scalars are understood.  Mappings keep
their entries in document order, and any value may be a key.
-/

namespace TemplateConditions.Yaml

inductive Number where
  | int (value : Int)
  | float (value : Binary64)
  | infinite (negative : Bool)
  | nan
  deriving DecidableEq

namespace Number

/-- Floats are positional from 0.00001 up to below 10^16, and have an exponent without a plus sign
otherwise. -/
def layout : NumberLayout where
  plainFrom := -5
  plainThrough := 15
  plusSign := false

def text : Number → String
  | .int value => Text.signedDecimal value
  | .float value => layout.write value
  | .infinite negative => if negative then "-.inf" else ".inf"
  | .nan => ".nan"

/-- Equality as keys: the two zeros are one key, and so is NaN; an integer and a float differ. -/
def same : Number → Number → Bool
  | .float x, .float y => x.sameValue y
  | x, y => x == y

end Number

/-- A value.  Tagged values have private tags, which are kept by their names. -/
inductive Value where
  | null
  | bool (value : Bool)
  | number (value : Number)
  | string (value : String)
  | sequence (items : List Value)
  | mapping (entries : List (Value × Value))
  | tagged (tag : String) (content : Value)
  deriving Inhabited

namespace Value

mutual

/-- Equality as keys: the order of a mapping's entries does not count. -/
def same : Value → Value → Bool
  | .null, .null => true
  | .bool x, .bool y => x == y
  | .number x, .number y => x.same y
  | .string x, .string y => x == y
  | .sequence xs, .sequence ys => sameItems xs ys
  | .mapping xs, .mapping ys => xs.length == ys.length && sameEntries xs ys
  | .tagged tag x, .tagged other y => tag == other && x.same y
  | _, _ => false

def sameItems : List Value → List Value → Bool
  | [], [] => true
  | x :: xs, y :: ys => x.same y && sameItems xs ys
  | _, _ => false

/-- Is every entry among the others? -/
def sameEntries : List (Value × Value) → List (Value × Value) → Bool
  | [], _ => true
  | (key, value) :: rest, others =>
    others.any (fun other => key.same other.1 && value.same other.2) && sameEntries rest others

end

mutual

/-- The value as messages show it. -/
def describe : Value → String
  | .null => "Null"
  | .bool value => if value then "Bool(true)" else "Bool(false)"
  | .number value => "Number(" ++ value.text ++ ")"
  | .string value => "String(" ++ Text.quoted value ++ ")"
  | .sequence items => "Sequence [" ++ describeItems items ++ "]"
  | .mapping entries => "Mapping \x7b" ++ describeEntries entries ++ "\x7d"
  | .tagged tag content =>
    "TaggedValue \x7b tag: !" ++ tag ++ ", value: " ++ content.describe ++ " \x7d"

/-- A key, which shows booleans, numbers and strings bare. -/
def describeKey : Value → String
  | .bool value => if value then "true" else "false"
  | .number value => value.text
  | .string value => Text.quoted value
  | .null => "Null"
  | .sequence items => "Sequence [" ++ describeItems items ++ "]"
  | .mapping entries => "Mapping \x7b" ++ describeEntries entries ++ "\x7d"
  | .tagged tag content =>
    "TaggedValue \x7b tag: !" ++ tag ++ ", value: " ++ content.describe ++ " \x7d"

def describeItems : List Value → String
  | [] => ""
  | [item] => item.describe
  | item :: rest => item.describe ++ ", " ++ describeItems rest

def describeEntries : List (Value × Value) → String
  | [] => ""
  | [(key, value)] => key.describeKey ++ ": " ++ value.describe
  | (key, value) :: rest =>
    key.describeKey ++ ": " ++ value.describe ++ ", " ++ describeEntries rest

end

end Value

end TemplateConditions.Yaml
