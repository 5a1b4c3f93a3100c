import TemplateConditions.Proofs.Resolution.Visit

/-!
# Walks

Resolution one step at a time, with the stack of open names as a value of its own.  A name is put on
the stack before its definition is read, and is taken off again when the definition has its tree or
is given up.  A combination that calls for a target is set aside until the target returns.  The
height of a combination is put together from the heights that the session keeps at that moment.
-/

namespace TemplateConditions

/-- A combination that waits for a target, between the trees of the targets in front of it and the
targets that come after it. -/
structure Pending where
  name : String
  connective : Connective
  finished : List Resolved
  waiting : List String

/-- How far the call for a name has come. -/
inductive Stage where
  /-- The tree of the name is asked for. -/
  | entered
  /-- The name stands on the stack, and its definition is read next. -/
  | opened (definition : Json)
  /-- The targets of its combination are resolved in turn. -/
  | gathering (connective : Connective) (finished : List Resolved) (waiting : List String)
  /-- The definition is dealt with, and the name is still on the stack. -/
  | closed (result : Except Finding Built)
  /-- The name has been taken off the stack, and nothing is kept yet. -/
  | released (result : Except Finding Built)
  /-- The tree is returned, or the finding because of which the name is given up. -/
  | returned (result : Except Finding Resolved)

/-- A resolution on its way.  The stack and the combinations that wait list the innermost one
first. -/
structure Walk where
  session : Session
  stack : List String
  pending : List Pending
  name : String
  stage : Stage

/-- The height of a combination over these children, as far as the session keeps their heights. -/
def Session.heightOver (session : Session) (children : List Resolved) : Nat :=
  let kept := children.filterMap fun child => session.built? child.tree.name
  1 + (kept.map Built.height).foldl max 0

namespace Walk

/-! ## Steps -/

/-- Records a finding and gives up the name because of it. -/
def giveUp (walk : Walk) (cause : Finding) : Walk :=
  { walk with session := walk.session.report cause, stage := .returned (.error cause) }

/-- A tree that is kept already is returned if it has room above the stack.  Otherwise the name is
put on the stack, unless it stands there already or the stack is full. -/
def enter (definitions : Definitions) (limit : Nat) (walk : Walk) : Walk :=
  match walk.session.built? walk.name with
  | some built =>
    if walk.stack.length + built.height ≤ limit then
      { walk with stage := .returned (.ok built.toResolved) }
    else walk.giveUp (.depthExceeded walk.name limit)
  | none =>
    if walk.name ∈ walk.stack then
      walk.giveUp (.circularReference (cycleThrough walk.name walk.stack))
    else if limit ≤ walk.stack.length then walk.giveUp (.depthExceeded walk.name limit)
    else
      match Ordered.find? walk.name definitions with
      | none =>
        { walk with
          session := walk.session.report (.unknownCondition walk.name)
          stage := .returned (.ok (.empty walk.name)) }
      | some definition =>
        { walk with stack := walk.name :: walk.stack, stage := .opened definition }

/-- Nothing below a definition is looked at before the definition is known to be sound. -/
def read (definitions : Definitions) (definition : Json) (walk : Walk) : Walk :=
  match Definition.ofJson definition with
  | .error fault =>
    { walk with
      session := walk.session.report (.ofFault walk.name fault)
      stage := .closed (.ok ⟨.empty walk.name, 1⟩) }
  | .ok (.comparison clause) => { walk with stage := .closed (.ok ⟨.equals walk.name clause, 1⟩) }
  | .ok (.combination connective targets) =>
    match definitions.missing targets with
    | [] => { walk with stage := .gathering connective [] targets }
    | missing =>
      { walk with
        session := walk.session.reportAll (missing.map (.danglingReference walk.name))
        stage := .closed (.ok ⟨.empty walk.name, 1⟩) }

/-- Calls for the next target, or joins the children if there is none. -/
def gather (connective : Connective) (finished : List Resolved) (walk : Walk) :
    List String → Walk
  | [] =>
    { walk with
      stage := .closed (.ok
        ⟨.combine walk.name connective finished, walk.session.heightOver finished⟩) }
  | target :: waiting =>
    { walk with
      pending := ⟨walk.name, connective, finished, waiting⟩ :: walk.pending
      name := target
      stage := .entered }

/-- Takes off what was put on the stack last. -/
def release (result : Except Finding Built) (walk : Walk) : Walk :=
  { walk with stack := walk.stack.tail, stage := .released result }

/-- Keeps a finished tree; a name that is given up because of another one reports that. -/
def settle (walk : Walk) : Except Finding Built → Walk
  | .ok built =>
    { walk with
      session := walk.session.keep walk.name built
      stage := .returned (.ok built.toResolved) }
  | .error cause =>
    { walk with
      session :=
        if cause.concerns walk.name then walk.session
        else walk.session.report (.degraded walk.name cause)
      stage := .returned (.error cause) }

/-- Hands the result of a target to the combination that waits for it. -/
def resume (walk : Walk) (pending : Pending) (rest : List Pending) :
    Except Finding Resolved → Walk
  | .ok child =>
    { walk with
      pending := rest
      name := pending.name
      stage := .gathering pending.connective (pending.finished ++ [child]) pending.waiting }
  | .error cause =>
    { walk with pending := rest, name := pending.name, stage := .closed (.error cause) }

theorem pending_resume (walk : Walk) (pending : Pending) (rest : List Pending)
    (result : Except Finding Resolved) : (walk.resume pending rest result).pending = rest := by
  cases result <;> rfl

/-- The next step; there is none when a call from the top has returned. -/
def next? (definitions : Definitions) (limit : Nat) (walk : Walk) : Option Walk :=
  match walk.stage with
  | .entered => some (walk.enter definitions limit)
  | .opened definition => some (walk.read definitions definition)
  | .gathering connective finished waiting => some (walk.gather connective finished waiting)
  | .closed result => some (walk.release result)
  | .released result => some (walk.settle result)
  | .returned result =>
    match walk.pending with
    | [] => none
    | pending :: rest => some (walk.resume pending rest result)

/-! ## Open calls -/

/-- The names of the open calls, the innermost one first. -/
def names (walk : Walk) : List String :=
  walk.name :: walk.pending.map Pending.name

/-- What a step does to the calls that are open: it stays within the innermost one, opens one below
it, or returns from it to the one above. -/
inductive Moves (walk next : Walk) : Prop
  | stays (hname : next.name = walk.name) (hpending : next.pending = walk.pending)
    (hstage : next.stage ≠ .entered)
  | calls {pending : Pending} (hname : pending.name = walk.name)
    (hpending : next.pending = pending :: walk.pending) (hstage : next.stage = .entered)
  | returns {pending : Pending} (hname : next.name = pending.name)
    (hpending : walk.pending = pending :: next.pending) (hstage : next.stage ≠ .entered)

variable {definitions : Definitions} {limit : Nat} {walk next : Walk}

theorem moves_enter (definitions : Definitions) (limit : Nat) (walk : Walk) :
    walk.Moves (walk.enter definitions limit) := by
  unfold enter giveUp
  repeat' split
  all_goals exact .stays rfl rfl (by simp)

theorem moves_read (definitions : Definitions) (definition : Json) (walk : Walk) :
    walk.Moves (walk.read definitions definition) := by
  unfold read
  repeat' split
  all_goals exact .stays rfl rfl (by simp)

theorem moves_of_next? (h : walk.next? definitions limit = some next) : walk.Moves next := by
  unfold next? at h
  cases hstage : walk.stage with rw [hstage] at h
  | entered =>
    rw [← Option.some.inj h]
    exact moves_enter definitions limit walk
  | opened definition =>
    rw [← Option.some.inj h]
    exact moves_read definitions definition walk
  | gathering connective finished waiting =>
    rw [← Option.some.inj h]
    cases waiting with
    | nil => exact .stays rfl rfl (by simp [gather])
    | cons target waiting => exact .calls rfl rfl rfl
  | closed result =>
    rw [← Option.some.inj h]
    exact .stays rfl rfl (by simp [release])
  | released result =>
    rw [← Option.some.inj h]
    cases result <;> exact .stays rfl rfl (by simp [settle])
  | returned result =>
    cases hpending : walk.pending with simp only [hpending] at h
    | nil => exact absurd h (by simp)
    | cons pending rest =>
      rw [← Option.some.inj h]
      cases result <;> exact .returns rfl hpending (by simp [resume])

/-! ## Kept trees -/

theorem built?_enter (definitions : Definitions) (limit : Nat) (walk : Walk) (name : String) :
    (walk.enter definitions limit).session.built? name = walk.session.built? name := by
  unfold enter giveUp
  repeat' split
  all_goals rfl

theorem built?_read (definitions : Definitions) (definition : Json) (walk : Walk)
    (name : String) :
    (walk.read definitions definition).session.built? name = walk.session.built? name := by
  unfold read
  repeat' split
  all_goals first | rfl | exact Session.built?_reportAll walk.session _ name

/-- A tree that a step adds is the one that has just been finished. -/
theorem released_of_next? (h : walk.next? definitions limit = some next) {name : String}
    {built : Built} (hkept : next.session.built? name = some built)
    (hnew : walk.session.built? name ≠ some built) :
    walk.name = name ∧ walk.stage = .released (.ok built) := by
  unfold next? at h
  cases hstage : walk.stage with rw [hstage] at h
  | entered =>
    rw [← Option.some.inj h, built?_enter] at hkept
    exact absurd hkept hnew
  | opened definition =>
    rw [← Option.some.inj h, built?_read] at hkept
    exact absurd hkept hnew
  | gathering connective finished waiting =>
    rw [← Option.some.inj h] at hkept
    cases waiting <;> exact absurd hkept hnew
  | closed result =>
    rw [← Option.some.inj h] at hkept
    exact absurd hkept hnew
  | released result =>
    rw [← Option.some.inj h] at hkept
    cases result with
    | error cause =>
      rw [settle] at hkept
      dsimp only at hkept
      split at hkept <;> exact absurd hkept hnew
    | ok finished =>
      rw [settle, Session.built?_keep] at hkept
      split at hkept
      · rename_i hname
        rw [hname, Option.some.inj hkept]
        exact ⟨rfl, rfl⟩
      · exact absurd hkept hnew
  | returned result =>
    cases hpending : walk.pending with simp only [hpending] at h
    | nil => exact absurd h (by simp)
    | cons pending rest =>
      rw [← Option.some.inj h] at hkept
      cases result <;> exact absurd hkept hnew

end Walk

end TemplateConditions
