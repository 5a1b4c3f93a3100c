import TemplateConditions.Condition.Findings
import TemplateConditions.Condition.Resolved

/-!
# Resolution

Turning a declared name into a condition tree.  Resolution goes down from the name along the
conditions that definitions combine, and keeps the path it came by.  A name that is met again on
its own path, or a path longer than the limit, gives up every condition on that path; any other
fault empties one condition only.  A session keeps each finished tree with its influence map and its
height, so that a tree that is used again can be measured against the room that is left.
-/

namespace TemplateConditions

/-- The declared conditions by name. -/
abbrev Definitions := List (String × Json)

/-- Is there a condition of that name? -/
def Definitions.declares (definitions : Definitions) (name : String) : Bool :=
  (Ordered.find? name definitions).isSome

/-- A finished tree and its height: the number of conditions on its longest path. -/
structure Built extends Resolved where
  height : Nat

/-- What resolution remembers from one name to the next. -/
structure Session where
  built : List (String × Built) := []
  recorded : Findings := .empty

namespace Session

/-- The findings that are recorded, in the order in which they came. -/
def findings (session : Session) : List Finding :=
  session.recorded.toList

/-- Records a finding, unless it is recorded already. -/
def report (session : Session) (finding : Finding) : Session :=
  { session with recorded := session.recorded.record finding }

/-- Records several findings in order. -/
def reportAll (session : Session) (findings : List Finding) : Session :=
  findings.foldl report session

/-- The finished tree of a name. -/
def built? (session : Session) (name : String) : Option Built :=
  Ordered.find? name session.built

/-- Keeps a finished tree. -/
def keep (session : Session) (name : String) (built : Built) : Session :=
  { session with built := Ordered.insert name built session.built }

end Session

/-- The outcome of a step: a tree, or the finding because of which the path was given up. -/
abbrev Outcome (α : Type) := Session × Except Finding α

namespace Outcome

/-- Records a finding and gives up the path because of it. -/
def giveUp {α : Type} (session : Session) (cause : Finding) : Outcome α :=
  (session.report cause, .error cause)

/-- Keeps a finished tree and returns it. -/
def finish (session : Session) (name : String) (built : Built) : Outcome Built :=
  (session.keep name built, .ok built)

end Outcome

/-- The least of a non-empty list of names. -/
def leastName (first : String) (rest : List String) : String :=
  rest.foldl (fun least name => if name < least then name else least) first

/-- The path from the least name on it around to that name again, so that a cycle has one path
whatever name it was entered by. -/
def closedFromLeast : List String → List String
  | [] => []
  | first :: rest =>
    let least := leastName first rest
    let cycle := first :: rest
    cycle.dropWhile (· ≠ least) ++ cycle.takeWhile (· ≠ least) ++ [least]

/-- The cycle that closes when `name` is met again on a path, which lists its names from the last
one back to the first. -/
def cycleThrough (name : String) (path : List String) : List String :=
  closedFromLeast (name :: (path.takeWhile (· ≠ name)).reverse)

/-- Resolves names one after the other, and stops at the first that is given up. -/
def resolveEach (step : Session → String → Outcome Built) :
    Session → List String → Outcome (List Built)
  | session, [] => (session, .ok [])
  | session, name :: rest =>
    match step session name with
    | (session, .error cause) => (session, .error cause)
    | (session, .ok built) =>
      match resolveEach step session rest with
      | (session, .error cause) => (session, .error cause)
      | (session, .ok others) => (session, .ok (built :: others))

/-- The tree of a combination over finished children. -/
def combineBuilt (name : String) (connective : Connective) (children : List Built) : Built where
  toResolved := .combine name connective (children.map Built.toResolved)
  height := 1 + (children.map Built.height).foldl max 0

/-- Resolves `name` below `path`, where `room` more conditions may be stacked.  The room is the
limit less the length of the path, and shrinks with every step down. -/
def resolveBelow (definitions : Definitions) (room : Nat) (path : List String) (session : Session)
    (name : String) : Outcome Built :=
  match session.built? name with
  | some built =>
    if built.height ≤ room then (session, .ok built)
    else .giveUp session (.depthExceeded name (path.length + room))
  | none =>
    if name ∈ path then .giveUp session (.circularReference (cycleThrough name path))
    else
      match room with
      | 0 => .giveUp session (.depthExceeded name path.length)
      | room + 1 =>
        match Ordered.find? name definitions with
        | none => (session.report (.unknownCondition name), .ok ⟨.empty name, 1⟩)
        | some definition =>
          match Definition.ofJson definition with
          | .error fault => .finish (session.report (.ofFault name fault)) name ⟨.empty name, 1⟩
          | .ok (.comparison clause) => .finish session name ⟨.equals name clause, 1⟩
          | .ok (.combination connective targets) =>
            match targets.filter fun target => !definitions.declares target with
            | [] =>
              match resolveEach (resolveBelow definitions room (name :: path)) session targets with
              | (session, .ok children) =>
                .finish session name (combineBuilt name connective children)
              | (session, .error cause) =>
                (if cause.concerns name then session else session.report (.degraded name cause),
                  .error cause)
            | missing =>
              .finish (session.reportAll (missing.map (.danglingReference name))) name
                ⟨.empty name, 1⟩
termination_by structural room

namespace Session

/-- Resolves a name from the top; a name that is given up is an empty condition.  A limit of zero
leaves room for no condition at all. -/
def resolve (definitions : Definitions) (limit : Nat) (session : Session) (name : String) :
    Session × Resolved :=
  match resolveBelow definitions limit [] session name with
  | (session, .ok built) => (session, built.toResolved)
  | (session, .error _) => (session, .empty name)

/-- Resolves names one after the other in one session. -/
def resolveAll (definitions : Definitions) (limit : Nat) (session : Session) :
    List String → Session × List Resolved
  | [] => (session, [])
  | name :: rest =>
    let (session, condition) := session.resolve definitions limit name
    let (session, conditions) := resolveAll definitions limit session rest
    (session, condition :: conditions)

end Session

/-- Resolves one name by itself: its tree, and the findings on the way. -/
def Condition.resolve (definitions : Definitions) (limit : Nat) (name : String) :
    Resolved × List Finding :=
  let (session, condition) := Session.resolve definitions limit {} name
  (condition, session.findings)

end TemplateConditions
