import TemplateConditions.Condition.Scenario
import TemplateConditions.Text.Digits

/-!
# Arguments

The grammar of the command line.  `--json` and `--max-depth` may stand before or behind the
subcommand; the other options belong to subcommands.  An option takes its value from the same
argument or from the next one, which may not look like an option itself.
-/

namespace TemplateConditions.Cli

/-- What the program is asked to do with a template, or with names. -/
inductive Command where
  | list (template : String)
  | tree (template condition : String)
  | influence (template : String) (condition : Option String)
  | test (template condition : String) (assignments : List Assignment)
  | token (names : List String)
  deriving DecidableEq

/-- The path of the template that a command reads. -/
def Command.template? : Command → Option String
  | .list template => some template
  | .tree template _ => some template
  | .influence template _ => some template
  | .test template _ _ => some template
  | .token _ => none

structure Invocation where
  json : Bool
  maxDepth : Option Nat
  command : Command
  deriving DecidableEq

/-- Why the arguments ask for no command. -/
inductive Stop where
  | usage
  | help
  | version
  deriving DecidableEq

/-! ## Options -/

inductive Subcommand where
  | list
  | tree
  | influence
  | test
  | token
  deriving DecidableEq

def Subcommand.ofName? : String → Option Subcommand
  | "list" => some .list
  | "show" => some .tree
  | "influence" => some .influence
  | "test" => some .test
  | "token" => some .token
  | _ => none

/-- The options without a value. -/
inductive Switch where
  | json
  | help
  | version
  deriving DecidableEq

/-- The options with a value. -/
inductive Field where
  | maxDepth
  | template
  | condition
  | set
  deriving DecidableEq

inductive Choice where
  | switch (switch : Switch)
  | field (field : Field)
  deriving DecidableEq

/-- The option of a long name. -/
def Choice.ofName? : String → Option Choice
  | "json" => some (.switch .json)
  | "help" => some (.switch .help)
  | "version" => some (.switch .version)
  | "max-depth" => some (.field .maxDepth)
  | "template" => some (.field .template)
  | "condition" => some (.field .condition)
  | "set" => some (.field .set)
  | _ => none

/-- The option of a letter. -/
def Choice.ofLetter? : Char → Option Choice
  | 'h' => some (.switch .help)
  | 'V' => some (.switch .version)
  | 't' => some (.field .template)
  | 'c' => some (.field .condition)
  | 's' => some (.field .set)
  | _ => none

/-- Is the option allowed behind the subcommand, or in front of one if there is none yet? -/
def Choice.isAllowed (subcommand : Option Subcommand) : Choice → Bool
  | .switch .version => subcommand.isNone
  | .switch _ => true
  | .field .maxDepth => true
  | .field .template => subcommand.any (· ≠ .token)
  | .field .condition =>
    subcommand.any fun s => s = .tree || s = .influence || s = .test
  | .field .set => subcommand = some .test

/-! ## Values -/

/-- What is given so far, in front of the subcommand or behind it. -/
structure Given where
  json : Bool := false
  maxDepth : Option Nat := none
  template : Option String := none
  condition : Option String := none
  assignments : List Assignment := []
  names : List String := []

namespace Given

/-- Turns a switch on, which can be done once. -/
def switchOn (given : Given) : Switch → Except Stop Given
  | .json => if given.json then .error .usage else .ok { given with json := true }
  | .help => .error .help
  | .version => .error .version

/-- Gives an option its value.  Only `--set` can be given again, and a path may not be empty. -/
def setField (given : Given) (field : Field) (value : String) : Except Stop Given :=
  match field with
  | .maxDepth =>
    match given.maxDepth, Text.readWord? value.toList with
    | none, some n => .ok { given with maxDepth := some n }
    | _, _ => .error .usage
  | .template =>
    if given.template.isSome || value = "" then .error .usage
    else .ok { given with template := some value }
  | .condition =>
    if given.condition.isSome then .error .usage
    else .ok { given with condition := some value }
  | .set =>
    match Assignment.ofText value with
    | .ok assignment => .ok { given with assignments := given.assignments ++ [assignment] }
    | .error _ => .error .usage

def addName (given : Given) (name : String) : Given :=
  { given with names := given.names ++ [name] }

end Given

/-! ## Arguments -/

/-- Does an argument look like an option?  A lone hyphen does not. -/
def looksLikeOption (argument : String) : Bool :=
  match argument.toList with
  | '-' :: _ :: _ => true
  | _ => false

/-- What an option argument leaves to be read: nothing, or the value of its last option. -/
inductive Progress where
  | done (given : Given)
  | awaits (given : Given) (field : Field)

/-- Reads a long option behind its hyphens. -/
def readLong (subcommand : Option Subcommand) (given : Given) (text : List Char) :
    Except Stop Progress :=
  let (name, attached) : List Char × Option String := match Text.splitAt? '=' text with
    | some (name, value) => (name, some (String.ofList value))
    | none => (text, none)
  match (Choice.ofName? (String.ofList name)).filter (·.isAllowed subcommand), attached with
  | some (.switch switch), none => (given.switchOn switch).map .done
  | some (.field field), some value => (given.setField field value).map .done
  | some (.field field), none => .ok (.awaits given field)
  | _, _ => .error .usage

/-- Reads the letters behind one hyphen.  What follows the letter of an option with a value is that
value, behind an equals sign or without one. -/
def readLetters (subcommand : Option Subcommand) (given : Given) :
    List Char → Except Stop Progress
  | [] => .ok (.done given)
  | letter :: rest =>
    match (Choice.ofLetter? letter).filter (·.isAllowed subcommand) with
    | none => .error .usage
    | some (.switch switch) =>
      match given.switchOn switch with
      | .ok given => readLetters subcommand given rest
      | .error stop => .error stop
    | some (.field field) =>
      match rest with
      | [] => .ok (.awaits given field)
      | '=' :: value => (given.setField field (String.ofList value)).map .done
      | value => (given.setField field (String.ofList value)).map .done

/-- Reads an argument that looks like an option. -/
def readOption (subcommand : Option Subcommand) (given : Given) (argument : String) :
    Except Stop Progress :=
  match argument.toList with
  | '-' :: '-' :: text => readLong subcommand given text
  | letters => readLetters subcommand given (letters.drop 1)

/-- Reads arguments that are no options: names for `token`, and nothing elsewhere. -/
def readNames (subcommand : Option Subcommand) (given : Given) (names : List String) :
    Except Stop Given :=
  if names.isEmpty || subcommand = some .token then .ok (names.foldl Given.addName given)
  else .error .usage

/-- Reads the arguments of one level.  In front of the subcommand it ends at the first argument that
is no option, which is returned with those behind it. -/
def readLevel (subcommand : Option Subcommand) (given : Given) :
    List String → Except Stop (Given × List String)
  | [] => .ok (given, [])
  | "--" :: rest => (readNames subcommand given rest).map fun given => (given, [])
  | argument :: rest =>
    if looksLikeOption argument then
      match readOption subcommand given argument, rest with
      | .error stop, _ => .error stop
      | .ok (.done given), rest => readLevel subcommand given rest
      | .ok (.awaits given field), value :: rest =>
        if looksLikeOption value then .error .usage
        else
          match given.setField field value with
          | .ok given => readLevel subcommand given rest
          | .error stop => .error stop
      | .ok (.awaits _ _), [] => .error .usage
    else if subcommand.isNone then .ok (given, argument :: rest)
    else
      match readNames subcommand given [argument] with
      | .ok given => readLevel subcommand given rest
      | .error stop => .error stop

/-- The value of a required option. -/
def require (value : Option String) : Except Stop String :=
  match value with
  | some value => .ok value
  | none => .error .usage

/-- The command that the options behind a subcommand make. -/
def Subcommand.command (subcommand : Subcommand) (given : Given) : Except Stop Command :=
  match subcommand with
  | .list => do return .list (← require given.template)
  | .tree => do return .tree (← require given.template) (← require given.condition)
  | .influence => do return .influence (← require given.template) given.condition
  | .test => do
    return .test (← require given.template) (← require given.condition) given.assignments
  | .token => .ok (.token given.names)

/-- The word `help` in place of a subcommand may be followed by the name of one. -/
def readHelp : List String → Stop
  | [] => .help
  | [name] => if (Subcommand.ofName? name).isSome || name = "help" then .help else .usage
  | _ => .usage

/-- Reads the arguments.  An option in front of the subcommand yields to the same one behind it. -/
def Invocation.ofArguments (arguments : List String) : Except Stop Invocation := do
  let (before, rest) ← readLevel none {} arguments
  match rest with
  | [] => throw .usage
  | "help" :: rest => throw (readHelp rest)
  | name :: rest =>
    match Subcommand.ofName? name with
    | none => throw .usage
    | some subcommand =>
      let (given, _) ← readLevel (some subcommand) {} rest
      return {
        json := before.json || given.json
        maxDepth := given.maxDepth <|> before.maxDepth
        command := ← subcommand.command given }

end TemplateConditions.Cli
