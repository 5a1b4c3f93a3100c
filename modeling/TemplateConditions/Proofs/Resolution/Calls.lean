import TemplateConditions.Proofs.Resolution.Reports

/-!
# Calls

Every call that is made while a name is resolved, as a relation on calls: a combination calls for
its targets in turn, up to the first that is given up.  The calls that are open at one time stand
below each other, and the path of the innermost one lists the names of all others.
-/

namespace TemplateConditions

variable {definitions : Definitions} {limit : Nat}

/-- A call for the tree of a name below a path, with room for so many conditions. -/
structure Call where
  room : Nat
  path : List String
  session : Session
  name : String

/-- The outcome is that of resolving the name. -/
def Answers (definitions : Definitions) (room : Nat) (path : List String) (session : Session)
    (name : String) (outcome : Outcome Built) : Prop :=
  outcome = resolveBelow definitions room path session name

theorem visit_answers (definitions : Definitions) (room : Nat) (path : List String)
    (session : Session) (name : String) :
    Visit definitions (Answers definitions) room path session name
      (resolveBelow definitions room path session name) :=
  visit_resolveBelow room path session name fun _ _ _ _ _ => rfl

theorem visitEach_answers (definitions : Definitions) (room : Nat) (path : List String)
    (session : Session) (names : List String) :
    VisitEach (Answers definitions room path) session names
      (resolveEach (resolveBelow definitions room path) session names) := by
  have hstep : ∀ session name, Answers definitions room path session name
      (resolveBelow definitions room path session name) := fun _ _ => rfl
  exact visitEach_resolveEach hstep session names

namespace Call

/-- What the call comes to. -/
def outcome (definitions : Definitions) (call : Call) : Outcome Built :=
  resolveBelow definitions call.room call.path call.session call.name

/-- The call for a name from the top. -/
def top (limit : Nat) (session : Session) (name : String) : Call :=
  ⟨limit, [], session, name⟩

/-- A combination that has no tree yet calls for a target as soon as the targets in front of it
have their trees. -/
inductive Nested (definitions : Definitions) : Call → Call → Prop
  | target {room : Nat} {path : List String} {session between : Session} {name : String}
    {connective : Connective} {passed : List String} {target : String} {rest : List String}
    {children : List Built} (hfresh : Fresh session path name)
    (hcombines : definitions.Combines name connective (passed ++ target :: rest))
    (hpassed : resolveEach (resolveBelow definitions room (name :: path)) session passed =
      (between, .ok children)) :
    Nested definitions ⟨room + 1, path, session, name⟩ ⟨room, name :: path, between, target⟩

/-- The second call is made by the first, or by a call that the first has made. -/
abbrev Reaches (definitions : Definitions) : Call → Call → Prop :=
  Relation.ReflTransGen (Nested definitions)

variable {call below : Call}

theorem Nested.path_eq (h : Nested definitions call below) :
    below.path = call.name :: call.path := by
  cases h
  rfl

/-- What a call takes of the room is what it adds to the path. -/
theorem Nested.length_add_room (h : Nested definitions call below) :
    below.path.length + below.room = call.path.length + call.room := by
  rw [h.path_eq, List.length_cons]
  cases h
  dsimp only
  omega

theorem Reaches.path_suffix (h : Reaches definitions call below) : call.path <:+ below.path := by
  induction h with
  | refl => exact List.suffix_refl call.path
  | tail _ hnested ih =>
    rw [hnested.path_eq]
    exact ih.trans (List.suffix_cons _ _)

/-! ## What holds of every call -/

/-- A call that is made within the limit: its session knows nothing but unfolded trees and the
faults in them, and its path leads to its name and has left the room that the call is given. -/
structure Within (definitions : Definitions) (limit : Nat) (call : Call) : Prop where
  sound : call.session.Sound definitions
  complete : call.session.Complete definitions
  entered : Entered definitions call.path call.name
  room_eq : call.path.length + call.room = limit

theorem within_top {session : Session} (hsound : session.Sound definitions)
    (hcomplete : session.Complete definitions) (name : String) :
    (top limit session name).Within definitions limit :=
  ⟨hsound, hcomplete, entered_top definitions name, Nat.zero_add limit⟩

theorem Within.told (h : call.Within definitions limit) :
    TargetTold definitions limit call.room call.path call.session call.name
      (call.outcome definitions) := by
  obtain ⟨hsound, hsettles⟩ := resolveBelow_settles call.room h.sound h.entered.leads
  obtain ⟨hcomplete, htells⟩ := resolveBelow_tells definitions limit call.room call.path
    call.session call.name h.sound h.entered h.room_eq h.complete
  exact ⟨hsound, hsettles, hcomplete, htells⟩

/-- The targets in front of a call leave the session sound, and add the faults of their trees. -/
theorem Nested.step (hnested : Nested definitions call below) (h : call.Within definitions limit) :
    below.Within definitions limit ∧
      ∃ trees : List Condition,
        call.session.Adds below.session (trees.flatMap (Condition.faults definitions)) := by
  cases hnested with
  | @target room path session between name connective passed target rest children hfresh hcombines
      hpassed =>
    have hroom : (name :: path).length + room = limit := by
      have heq : path.length + (room + 1) = limit := h.room_eq
      rw [List.length_cons]
      omega
    have hentered : ∀ lower ∈ passed ++ target :: rest, Entered definitions (name :: path) lower :=
      fun lower hlower => h.entered.below hfresh.offPath ⟨connective, _, hcombines, hlower⟩
    have hlower : ∀ lower ∈ passed, Entered definitions (name :: path) lower :=
      fun lower hmem => hentered lower (List.mem_append_left _ hmem)
    have hvisits := visitEach_answers definitions room (name :: path) session passed
    rw [hpassed] at hvisits
    -- What is known of every resolution within the limit holds of those in front of the call.
    have hsettled : VisitEach (fun session lower outcome => session.Sound definitions →
        outcome.1.Sound definitions ∧ Settles definitions room lower outcome.2)
        session passed (between, .ok children) := by
      refine hvisits.imp fun session lower hmem outcome houtcome hsound => ?_
      rw [houtcome]
      exact resolveBelow_settles room hsound (hlower lower hmem).leads
    have htold : VisitEach (fun session lower outcome => session.Sound definitions →
        session.Complete definitions →
          TargetTold definitions limit room (name :: path) session lower outcome)
        session passed (between, .ok children) := by
      refine hvisits.imp fun session lower hmem outcome houtcome hsound hcomplete => ?_
      have hwithin : (Call.mk room (name :: path) session lower).Within definitions limit :=
        ⟨hsound, hcomplete, hlower lower hmem, hroom⟩
      rw [houtcome]
      exact hwithin.told
    obtain ⟨hsound, _⟩ := visitEach_settles hsettled h.sound
    obtain ⟨hcomplete, hadds⟩ := visitEach_tells room htold h.sound h.complete
    refine ⟨⟨hsound, hcomplete, ?_, hroom⟩, children.map fun child => child.tree, ?_⟩
    · exact hentered target (List.mem_append_right _ List.mem_cons_self)
    · rw [List.flatMap_map]
      exact hadds

theorem Reaches.within (hreach : Reaches definitions call below)
    (h : call.Within definitions limit) : below.Within definitions limit := by
  induction hreach with
  | refl => exact h
  | tail _ hnested ih => exact (hnested.step ih).1

/-- Until a call is made, nothing has come up but faults of definitions. -/
theorem Reaches.not_aboutPath (hreach : Reaches definitions call below)
    (h : call.Within definitions limit)
    (hquiet : ∀ finding ∈ call.session.findings, ¬ finding.AboutPath) :
    ∀ finding ∈ below.session.findings, ¬ finding.AboutPath := by
  induction hreach with
  | refl => exact hquiet
  | tail hreach hnested ih =>
    obtain ⟨trees, hadds⟩ := (hnested.step (Reaches.within hreach h)).2
    intro finding hfinding
    rcases hadds.mem_iff.1 hfinding with hold | hnew
    · exact ih finding hold
    · obtain ⟨tree, _, hfault⟩ := List.mem_flatMap.1 hnew
      exact Condition.not_aboutPath_of_mem_faults hfault

end Call

end TemplateConditions
