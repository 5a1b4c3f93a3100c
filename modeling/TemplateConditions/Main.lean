import TemplateConditions.Cli.Run

/-!
# The program

Reads the files that a run asks for, runs, and prints.
-/

namespace TemplateConditions

/-- The bytes at a path. -/
def readPath (path : String) : IO (Except ReadFault ByteArray) := do
  try
    return .ok (← IO.FS.readBinFile path)
  catch
    | .inappropriateType .. => return .error .directory
    | .permissionDenied .. => return .error .forbidden
    | _ => return .error .missing

/-- The number of directories above the working directory. -/
def directoriesAbove : IO Nat := do
  try
    return (← IO.currentDir).components.length - 1
  catch _ => return 0

/-- The variables of these names that the process has.  No variable has a name with NUL in it. -/
def readEnvironment (names : List String) : IO Cli.Environment :=
  (names.filter fun name => !name.contains '\x00').filterMapM fun name => do
    return (← IO.getEnv name).map fun value => (name, value)

/-- Runs with the files and the environment of the process, prints, and returns the exit code. -/
def runProcess (arguments : List String) : IO UInt32 := do
  let above ← directoriesAbove
  let contents ← (Cli.pathsRead arguments above).mapM fun path => return (path, ← readPath path)
  let files : Cli.Files := fun path => (contents.lookup path).getD (.error .missing)
  let env ← readEnvironment (Cli.variablesRead files above)
  let outcome := Cli.run arguments env files above
  (← IO.getStdout).putStr outcome.output
  (← IO.getStderr).putStr outcome.errors
  return outcome.code.toUInt32

end TemplateConditions

def main (arguments : List String) : IO UInt32 :=
  TemplateConditions.runProcess arguments
