import TemplateConditions.Condition.Resolution
import TemplateConditions.Yaml.Cursor
import TemplateConditions.Yaml.Value

/-!
# Templates

A template is a document whose root is an object.  Of its sections only `Conditions` and
`Parameters` matter here, and a section that is no object counts as missing.
-/

namespace TemplateConditions

/-- Why the bytes of a file cannot be had as text. -/
inductive ReadFault where
  | missing
  | directory
  | forbidden
  | encoding
  deriving DecidableEq

def ReadFault.message : ReadFault → String
  | .missing => "No such file or directory (os error 2)"
  | .directory => "Is a directory (os error 21)"
  | .forbidden => "Permission denied (os error 13)"
  | .encoding => "stream did not contain valid UTF-8"

/-- Why there is no template. -/
inductive LoadError where
  | unreadable (path : String) (fault : ReadFault)
  | json
  | yaml (fault : Yaml.Fault)
  | notAMapping (kind : String)
  | unsupportedKey (key : Yaml.Value)

def LoadError.message : LoadError → String
  | .unreadable path fault => "Failed to read template " ++ path ++ ": " ++ fault.message
  | .json => "The text is not valid JSON"
  | .yaml _ => "The text is not a valid YAML document"
  | .notAMapping kind => "Template root must be a mapping, found " ++ kind
  | .unsupportedKey key => "Unsupported mapping key: " ++ key.describe

/-- The members of the root, in ascending order. -/
structure Template where
  members : Members

namespace Template

def ofJson : Json → Except LoadError Template
  | .object members => .ok ⟨members⟩
  | other => .error (.notAMapping other.kind)

def root (template : Template) : Json :=
  .object template.members

/-- The members of a section, if it is an object. -/
def objectAt? (template : Template) (key : String) : Option Members :=
  match Ordered.find? key template.members with
  | some (.object members) => some members
  | _ => none

/-- The section of conditions. -/
def conditions? (template : Template) : Option Members :=
  template.objectAt? "Conditions"

/-- The section of parameters. -/
def parameters? (template : Template) : Option Members :=
  template.objectAt? "Parameters"

/-- The declared conditions; none without a section of them. -/
def definitions (template : Template) : Definitions :=
  template.conditions?.getD []

/-- The definition of one condition. -/
def definition? (template : Template) (name : String) : Option Json :=
  Ordered.find? name template.definitions

def conditionNames (template : Template) : List String :=
  template.definitions.map Prod.fst

def parameterNames (template : Template) : List String :=
  (template.parameters?.getD []).map Prod.fst

end Template

end TemplateConditions
