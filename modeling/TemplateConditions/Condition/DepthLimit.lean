import TemplateConditions.Text.Blank
import TemplateConditions.Text.Digits

/-!
# The depth limit

How many conditions may lie on one path of a resolved tree: a positive number, 64 unless it is set.
-/

namespace TemplateConditions

structure DepthLimit where
  value : Nat
  pos : 0 < value := by decide

namespace DepthLimit

instance : Coe DepthLimit Nat := ⟨DepthLimit.value⟩

def default : DepthLimit where
  value := 64

/-- The environment variable that sets the limit. -/
def environmentName : String := "CFN_CONDITIONS_MAX_DEPTH"

/-- The limit with the given value, or one for zero. -/
def atLeastOne (n : Nat) : DepthLimit :=
  ⟨max n 1, by omega⟩

/-- The limit that a text in the environment sets: a positive number below `2 ^ 64` with blanks
around it.  Any other text is ignored. -/
def ofEnvironment (text : Option String) : DepthLimit :=
  match text with
  | none => default
  | some text =>
    match Text.readWord? (Text.trim text).toList with
    | some (n + 1) => ⟨n + 1, by omega⟩
    | _ => default

/-- The limit for a run: the flag wins over the environment, and its zero counts as one. -/
def effective (flag : Option Nat) (environment : Option String) : DepthLimit :=
  match flag with
  | some n => atLeastOne n
  | none => ofEnvironment environment

end DepthLimit

end TemplateConditions
