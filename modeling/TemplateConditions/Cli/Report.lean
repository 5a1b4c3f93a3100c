import TemplateConditions.Condition.Collection
import TemplateConditions.Template.Basic

/-!
# Reports

What the commands print about a template, as lines of text or as JSON.  In text, tokens are shown
by the names of the parameters that they stand for.
-/

namespace TemplateConditions.Cli

/-- Ends each line with a line feed. -/
def unlines (lines : List String) : String :=
  String.join (lines.map (· ++ "\n"))

/-- A value as indented JSON. -/
def jsonText (value : Json) : String :=
  value.pretty ++ "\n"

def findingsJson (findings : List Finding) : Json :=
  .array (findings.map Finding.toJson)

/-! ## Names of tokens -/

/-- The references that have a name in a template: its parameters and the pseudo-parameters. -/
def knownReferences (template : Template) : List Reference :=
  template.parameterNames.map Reference.mk ++ Reference.pseudoParameters

/-- The names of the tokens that are known in a template. -/
def tokenNames (template : Template) : List (Token × String) :=
  (knownReferences template).map fun reference => (reference.token, reference.name)

/-- The name of a token if it is known, else the token itself.  Of several names the last counts. -/
def tokenName (names : List (Token × String)) (token : Token) : String :=
  match names.reverse.find? fun entry => entry.1 = token with
  | some entry => entry.2
  | none => token.hex

/-! ## Listing -/

/-- The lines of one condition: its kind, and the findings about it. -/
def listLines (set : ConditionSet) (name : String) (condition : Condition) : List String :=
  (name ++ ": " ++ condition.label)
    :: (set.findingsFor name).map fun finding => "  ! " ++ finding.message

/-- One condition with its kind and the findings about it. -/
def listEntry (set : ConditionSet) (name : String) (condition : Condition) : Json :=
  .object [("issues", findingsJson (set.findingsFor name)), ("kind", .string condition.label),
    ("name", .string name)]

/-- All conditions of a template. -/
def list (json : Bool) (set : ConditionSet) : String :=
  if json then
    jsonText (.array (set.conditions.map fun entry => listEntry set entry.1 entry.2.tree))
  else unlines (set.conditions.flatMap fun entry => listLines set entry.1 entry.2.tree)

/-! ## One condition -/

/-- The tree of a condition with the findings on the way; in JSON its influence instead of the
tree. -/
def tree (json : Bool) (condition : Resolved) (findings : List Finding) : String :=
  if json then
    jsonText (.object [("influence", condition.influence.toJson),
      ("issues", findingsJson findings), ("kind", .string condition.tree.label),
      ("name", .string condition.tree.name)])
  else condition.tree.render ++ unlines (findings.map fun finding => "! " ++ finding.message)

/-- A comparand in a line: a literal between quotes, a reference by its name behind an at sign. -/
def comparandText (names : List (Token × String)) : Comparand → String
  | .literal text => Text.quoted text
  | .reference token => "@" ++ tokenName names token

/-- What each token is compared with. -/
def influence (json : Bool) (template : Template) (map : Influence) : String :=
  if json then jsonText map.toJson
  else
    let names := tokenNames template
    unlines (map.entries.map fun entry =>
      tokenName names entry.1 ++ ": "
        ++ ", ".intercalate (entry.2.map (comparandText names)))

/-- The truth value of a condition in a scenario; in JSON also the tokens without a value. -/
def test (json : Bool) (template : Template) (name : String) (condition : Resolved)
    (scenario : Scenario) : String :=
  let result := condition.tree.holds scenario
  if json then
    let unassigned := (condition.unassigned scenario).map (tokenName (tokenNames template))
    jsonText (.object [("condition", .string name), ("result", .bool result),
      ("unassigned", .array (unassigned.map .string))])
  else unlines [name ++ ": " ++ (if result then "true" else "false")]

/-! ## Tokens -/

/-- The token of each name. -/
def tokens (names : List String) : String :=
  unlines (names.map fun name => (Token.ofName name).hex ++ "\t" ++ name)

end TemplateConditions.Cli
