import TemplateConditions.Cli.Arguments
import TemplateConditions.Cli.Environment
import TemplateConditions.Cli.Report
import TemplateConditions.Condition.DepthLimit
import TemplateConditions.Template.Load

/-!
# Running a command

A run is a function of the arguments, the environment and the files: it returns what is printed and
the exit code.  Faulty arguments end with code 2, a failing command with code 1, and settings that
cannot be made with code 101.
-/

namespace TemplateConditions.Cli

/-- What a run prints, and the code it ends with. -/
structure Outcome where
  code : Nat := 0
  output : String := ""
  errors : String := ""

/-- The files that a run can read, by path. -/
abbrev Files := String → Except ReadFault ByteArray

/-- Why a command fails. -/
inductive Failure where
  | template (path : String) (cause : LoadError)
  | undefinedCondition (name : String)
  | noNames

def Failure.message : Failure → String
  | .template path _ => "Failed to load template " ++ path
  | .undefinedCondition name => "Condition '" ++ name ++ "' is not defined"
  | .noNames => "No names given"

/-- The failure in the terms of what caused it, if something did. -/
def Failure.cause? : Failure → Option String
  | .template _ cause => some cause.message
  | _ => none

/-- Loads the template at a path. -/
def load (files : Files) (path : String) : Except Failure Template :=
  match Template.ofFile path (files path) with
  | .ok template => .ok template
  | .error cause => .error (.template path cause)

/-- What a command prints.  A condition that is not declared cannot be tested. -/
def Command.run (command : Command) (json : Bool) (limit : DepthLimit) (files : Files) :
    Except Failure String :=
  match command with
  | .list path => do
    let template ← load files path
    return Cli.list json (ConditionSet.ofDefinitions template.definitions limit)
  | .tree path name => do
    let template ← load files path
    let (condition, findings) := Condition.resolve template.definitions limit name
    return Cli.tree json condition findings
  | .influence path (some name) => do
    let template ← load files path
    let (condition, _) := Condition.resolve template.definitions limit name
    return Cli.influence json template condition.influence
  | .influence path none => do
    let template ← load files path
    let set := ConditionSet.ofDefinitions template.definitions limit
    return Cli.influence json template set.influence
  | .test path name assignments => do
    let template ← load files path
    let (condition, _) := Condition.resolve template.definitions limit name
    if condition.tree.isEmpty && !template.definitions.declares name then
      throw (.undefinedCondition name)
    return Cli.test json template name condition (Scenario.extend ∅ assignments)
  | .token [] => .error .noNames
  | .token names => .ok (tokens names)

/-! ## Runs -/

def versionText : String := "cfn-conditions 0.1.0\n"

def helpText : String :=
  unlines [
    "Usage: cfn-conditions [--json] [--max-depth <N>] <COMMAND>",
    "",
    "Commands:",
    "  list       -t <FILE>                            every condition with its findings",
    "  show       -t <FILE> -c <NAME>                  the tree of one condition",
    "  influence  -t <FILE> [-c <NAME>]                what each parameter is compared with",
    "  test       -t <FILE> -c <NAME> [-s <NAME=VALUE>]...  the value of one condition",
    "  token      [NAME]...                            the token of each name"]

/-- The paths at which settings for the environment may stand: in the working directory, and in the
directories above it, so many of them, from the nearest to the root. -/
def settingsPaths : Nat → List String
  | 0 => [".env"]
  | above + 1 => ".env" :: (settingsPaths above).map ("../" ++ ·)

/-- The content of the first file at the paths.  A directory is passed over like a path at which
there is nothing, and a file that cannot be read ends the search. -/
def firstFile? (files : Files) : List String → Option ByteArray
  | [] => none
  | path :: rest =>
    match files path with
    | .ok content => some content
    | .error .missing => firstFile? files rest
    | .error .directory => firstFile? files rest
    | .error _ => none

/-- The settings of a run, if there are any. -/
def settings? (files : Files) (above : Nat) : Option ByteArray :=
  firstFile? files (settingsPaths above)

/-- The paths of the files that a run reads. -/
def pathsRead (arguments : List String) (above : Nat) : List String :=
  match Invocation.ofArguments arguments with
  | .ok invocation => settingsPaths above ++ invocation.command.template?.toList
  | .error _ => settingsPaths above

/-- The names of the variables that a run reads: the one that sets the depth limit, and those that
the settings set or ask for. -/
def variablesRead (files : Files) (above : Nat) : List String :=
  DepthLimit.environmentName :: (settings? files above).toList.flatMap Environment.namesOfFile

/-- The environment of a run: the settings add to the variables that are given.  None if they
cannot be made. -/
def environmentWith? (env : Environment) (files : Files) (above : Nat) : Option Environment :=
  match settings? files above with
  | some content => env.applyFile? content
  | none => some env

/-- The depth limit of an invocation. -/
def Invocation.limit (invocation : Invocation) (env : Environment) : DepthLimit :=
  .effective invocation.maxDepth (env.lookup DepthLimit.environmentName)

/-- The outcome of a command that failed: its message, and what caused it. -/
def Failure.outcome (failure : Failure) : Outcome where
  code := 1
  errors := unlines (match failure.cause? with
    | some cause => ["Error: " ++ failure.message, "", "Caused by:", "    " ++ cause]
    | none => ["Error: " ++ failure.message])

/-- The outcome where the settings cannot be made.  The message stands below a blank line. -/
def settingsOutcome : Outcome where
  code := 101
  errors := unlines ["", "a setting holds the character NUL"]

/-- Runs the program in a working directory with so many directories above it.  The settings are
made before the arguments are looked at. -/
def run (arguments : List String) (env : Environment) (files : Files) (above : Nat := 0) :
    Outcome :=
  match environmentWith? env files above with
  | none => settingsOutcome
  | some env =>
    match Invocation.ofArguments arguments with
    | .error .version => { output := versionText }
    | .error .help => { output := helpText }
    | .error .usage => { code := 2, errors := "error: unexpected arguments\n\n" ++ helpText }
    | .ok invocation =>
      match invocation.command.run invocation.json (invocation.limit env) files with
      | .ok output => { output }
      | .error failure => failure.outcome

end TemplateConditions.Cli
