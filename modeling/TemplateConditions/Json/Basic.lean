import TemplateConditions.Number.Binary64
import TemplateConditions.Ordered.Map

/-!
# JSON values

Objects keep their members in ascending key order, so two objects with the same members are the
same value.  `Json.Canonical` states that order for a value and everything in it; every function
of the library that builds an object keeps it.
-/

namespace TemplateConditions

/-- A JSON number: an integer stays an integer, anything else is a finite binary64 number. -/
inductive JsonNumber where
  | int (value : Int)
  | float (value : Binary64)
  deriving DecidableEq

inductive Json where
  | null
  | bool (value : Bool)
  | number (value : JsonNumber)
  | string (value : String)
  | array (items : List Json)
  | object (members : List (String × Json))
  deriving BEq, Inhabited

/-- The members of an object. -/
abbrev Members := List (String × Json)

namespace Json

/-- The member with the given key, of an object. -/
def get? (key : String) : Json → Option Json
  | .object members => Ordered.find? key members
  | _ => none

/-- The kind of a value, as messages name it. -/
def kind : Json → String
  | .null => "null"
  | .bool _ => "boolean"
  | .number _ => "number"
  | .string _ => "string"
  | .array _ => "sequence"
  | .object _ => "mapping"

/-- An object with the given members, where the last member with a key counts. -/
def ofMembers (members : List (String × Json)) : Json :=
  .object (Ordered.ofEntries members)

def natural (n : Nat) : Json :=
  .number (.int n)

mutual

/-- Every object in the value has strictly ascending keys. -/
def Canonical : Json → Prop
  | .array items => CanonicalItems items
  | .object members => Ordered.Ascending members ∧ CanonicalMembers members
  | _ => True

def CanonicalItems : List Json → Prop
  | [] => True
  | item :: rest => item.Canonical ∧ CanonicalItems rest

def CanonicalMembers : List (String × Json) → Prop
  | [] => True
  | (_, value) :: rest => value.Canonical ∧ CanonicalMembers rest

end

end Json

end TemplateConditions
