import TemplateConditions.Proofs.Resolution.Repetition
import TemplateConditions.Proofs.Resolution.Runs

/-!
# Orderly walks

What holds of a walk at every moment.  The stack names the open calls and nothing else, no name on it
has a tree, and each combination that waits is one whose targets are what the walk says they are.
Every tree that is kept is exact: it is the unfolded tree of a declared name with its height, and all
subtrees are kept beside it.
-/

namespace TemplateConditions

variable {definitions : Definitions} {limit : Nat}

/-! ## Kept trees -/

/-- The built tree is the unfolded tree of a declared name, it fits the limit, and its children are
kept as trees of their own. -/
structure Exact (definitions : Definitions) (limit : Nat) (session : Session) (name : String)
    (built : Built) : Prop where
  declared : definitions.declares name = true
  unfolds : built.Unfolds definitions name
  height_le : built.height ≤ limit
  children : ∀ child ∈ built.tree.children,
    ∃ below, session.built? child.name = some below ∧ below.tree = child

/-- The session keeps the tree, and it has room above a stack of that many names. -/
def Session.Holds (session : Session) (limit depth : Nat) (child : Resolved) : Prop :=
  ∃ built, session.built? child.tree.name = some built ∧ built.toResolved = child ∧
    depth + built.height ≤ limit

section Growth

variable {path : List String} {session after : Session}

theorem Exact.of_spares {name : String} {built : Built}
    (h : Exact definitions limit session name built) (hspares : session.Spares path after) :
    Exact definitions limit after name built := by
  refine ⟨h.declared, h.unfolds, h.height_le, fun child hchild => ?_⟩
  obtain ⟨below, hbelow, htree⟩ := h.children child hchild
  exact ⟨below, hspares.kept hbelow, htree⟩

theorem Session.Holds.of_spares {depth : Nat} {child : Resolved}
    (h : session.Holds limit depth child) (hspares : session.Spares path after) :
    after.Holds limit depth child := by
  obtain ⟨built, hbuilt, heq, hroom⟩ := h
  exact ⟨built, hspares.kept hbuilt, heq, hroom⟩

end Growth

/-! ## Combinations under way -/

/-- The name combines the targets whose trees are finished and those that come after them, and the
finished trees are held. -/
structure Gathers (definitions : Definitions) (limit : Nat) (session : Session) (depth : Nat)
    (name : String) (connective : Connective) (finished : List Resolved)
    (waiting : List String) : Prop where
  combines : definitions.Combines name connective
    (finished.map (fun child => child.tree.name) ++ waiting)
  held : ∀ child ∈ finished, session.Holds limit depth child

theorem Gathers.of_spares {path : List String} {session after : Session} {depth : Nat}
    {name : String} {connective : Connective} {finished : List Resolved} {waiting : List String}
    (h : Gathers definitions limit session depth name connective finished waiting)
    (hspares : session.Spares path after) :
    Gathers definitions limit after depth name connective finished waiting :=
  ⟨h.combines, fun child hchild => (h.held child hchild).of_spares hspares⟩

/-- The tree of the next target joins those that are finished. -/
theorem Gathers.finish {session : Session} {depth : Nat} {name : String}
    {connective : Connective} {finished : List Resolved} {child : Resolved}
    {waiting : List String}
    (h : Gathers definitions limit session depth name connective finished
      (child.tree.name :: waiting))
    (hchild : session.Holds limit depth child) :
    Gathers definitions limit session depth name connective (finished ++ [child]) waiting := by
  constructor
  · rw [List.map_append, List.append_assoc]
    exact h.combines
  · intro other hother
    rcases List.mem_append.1 hother with hold | hnew
    · exact h.held other hold
    · rw [List.mem_singleton.1 hnew]
      exact hchild

/-- The combinations that wait: the innermost one for the name, and each of the others for the one
inside it. -/
def Awaited (definitions : Definitions) (limit : Nat) (session : Session) :
    String → List Pending → Prop
  | _, [] => True
  | name, pending :: rest =>
    Gathers definitions limit session (rest.length + 1) pending.name pending.connective
        pending.finished (name :: pending.waiting) ∧
      Awaited definitions limit session pending.name rest

theorem Awaited.of_spares {path : List String} {session after : Session} {name : String}
    {pending : List Pending} (h : Awaited definitions limit session name pending)
    (hspares : session.Spares path after) : Awaited definitions limit after name pending := by
  induction pending generalizing name with
  | nil => trivial
  | cons first rest ih => exact ⟨h.1.of_spares hspares, ih h.2⟩

/-- Read from the innermost one back, the combinations that wait are a path to the name. -/
theorem Awaited.leads {session : Session} {name : String} {pending : List Pending}
    (h : Awaited definitions limit session name pending) :
    LeadsTo definitions (pending.map Pending.name) name := by
  induction pending generalizing name with
  | nil => exact List.isChain_singleton name
  | cons first rest ih =>
    have hlive : definitions.LiveChild first.name name :=
      ⟨_, _, h.1.combines, List.mem_append_right _ List.mem_cons_self⟩
    exact (ih h.2).cons hlive

/-! ## Orderly walks -/

/-- The names on the stack on account of the call that a walk is in. -/
def Stage.own (name : String) : Stage → List String
  | .opened _ => [name]
  | .gathering _ _ _ => [name]
  | .closed _ => [name]
  | _ => []

/-- What is known at each stage of a call. -/
def Stage.Fits (definitions : Definitions) (limit : Nat) (session : Session) (stack : List String)
    (name : String) : Stage → Prop
  | .entered => True
  | .opened definition => Ordered.find? name definitions = some definition
  | .gathering connective finished waiting =>
    Gathers definitions limit session stack.length name connective finished waiting
  | .closed (.ok built) =>
    Exact definitions limit session name built ∧ stack.length + built.height ≤ limit + 1
  | .released (.ok built) =>
    Exact definitions limit session name built ∧ stack.length + built.height ≤ limit ∧
      Fresh session stack name
  | .returned (.ok child) =>
    child.tree.name = name ∧
      (definitions.declares name = true → session.Holds limit stack.length child)
  | .closed (.error _) | .released (.error _) | .returned (.error _) => True

/-- What does not depend on the stage of a call. -/
structure Tidy (definitions : Definitions) (limit : Nat) (session : Session) (stack : List String)
    (name : String) (pending : List Pending) : Prop where
  awaited : Awaited definitions limit session name pending
  exact : session.Keeps (Exact definitions limit session)
  unbuilt : ∀ upper ∈ stack, session.built? upper = none
  distinct : stack.Nodup
  length_le : stack.length ≤ limit

/-- The stack holds the names of the combinations that wait, and that of the call itself while its
definition is open. -/
structure Walk.Orderly (definitions : Definitions) (limit : Nat) (walk : Walk) : Prop where
  tidy : Tidy definitions limit walk.session walk.stack walk.name walk.pending
  stack_eq : walk.stack = walk.stage.own walk.name ++ walk.pending.map Pending.name
  fits : walk.stage.Fits definitions limit walk.session walk.stack walk.name

namespace Tidy

variable {session : Session} {stack : List String} {name : String} {pending : List Pending}

theorem reportAll (h : Tidy definitions limit session stack name pending)
    (findings : List Finding) :
    Tidy definitions limit (session.reportAll findings) stack name pending := by
  have hspares : session.Spares stack (session.reportAll findings) :=
    session.spares_reportAll stack findings
  refine ⟨h.awaited.of_spares hspares, ?_, ?_, h.distinct, h.length_le⟩
  · exact (h.exact.reportAll findings).imp fun _ _ hbuilt => hbuilt.of_spares hspares
  · intro upper hupper
    rw [hspares.onPath hupper]
    exact h.unbuilt upper hupper

theorem report (h : Tidy definitions limit session stack name pending) (finding : Finding) :
    Tidy definitions limit (session.report finding) stack name pending :=
  h.reportAll [finding]

theorem keep (h : Tidy definitions limit session stack name pending) {built : Built}
    (hfresh : Fresh session stack name) (hbuilt : Exact definitions limit session name built) :
    Tidy definitions limit (session.keep name built) stack name pending := by
  have hspares : session.Spares stack (session.keep name built) :=
    (session.spares_refl stack).keep hfresh.unbuilt hfresh.offPath built
  refine ⟨h.awaited.of_spares hspares, ?_, ?_, h.distinct, h.length_le⟩
  · exact (h.exact.keep hbuilt).imp fun _ _ hkept => hkept.of_spares hspares
  · intro upper hupper
    rw [hspares.onPath hupper]
    exact h.unbuilt upper hupper

theorem push (h : Tidy definitions limit session stack name pending)
    (hfresh : Fresh session stack name) (hroom : stack.length < limit) :
    Tidy definitions limit session (name :: stack) name pending where
  awaited := h.awaited
  exact := h.exact
  unbuilt := List.forall_mem_cons.2 ⟨hfresh.unbuilt, h.unbuilt⟩
  distinct := List.nodup_cons.2 ⟨hfresh.offPath, h.distinct⟩
  length_le := hroom

theorem pop {other : String} (h : Tidy definitions limit session (other :: stack) name pending) :
    Tidy definitions limit session stack name pending where
  awaited := h.awaited
  exact := h.exact
  unbuilt := (List.forall_mem_cons.1 h.unbuilt).2
  distinct := (List.nodup_cons.1 h.distinct).2
  length_le := Nat.le_of_succ_le h.length_le

theorem sound (h : Tidy definitions limit session stack name pending) :
    session.Sound definitions :=
  h.exact.imp fun _ _ hbuilt => hbuilt.unfolds

end Tidy

/-! ## Joining finished trees -/

/-- Finished trees that are held are kept with their heights, so a combination over them is joined
from what the session keeps. -/
theorem exists_built_of_held {session : Session} {depth : Nat} {finished : List Resolved}
    (h : ∀ child ∈ finished, session.Holds limit depth child) :
    ∃ children : List Built, finished = children.map Built.toResolved ∧
      (finished.filterMap fun child => session.built? child.tree.name) = children ∧
      ∀ child ∈ children, session.built? child.tree.name = some child ∧
        depth + child.height ≤ limit := by
  induction finished with
  | nil => exact ⟨[], rfl, rfl, fun _ hchild => absurd hchild List.not_mem_nil⟩
  | cons child rest ih =>
    obtain ⟨hchild, hrest⟩ := List.forall_mem_cons.1 h
    obtain ⟨built, hbuilt, rfl, hroom⟩ := hchild
    obtain ⟨children, rfl, hkept, hchildren⟩ := ih hrest
    refine ⟨built :: children, rfl, ?_, List.forall_mem_cons.2 ⟨⟨hbuilt, hroom⟩, hchildren⟩⟩
    rw [List.filterMap_cons, hkept, hbuilt]

/-- The tree that a combination closes with is that of the children that the session keeps. -/
theorem combine_heightOver {session : Session} {finished : List Resolved} {children : List Built}
    (hfinished : finished = children.map Built.toResolved)
    (hkept : (finished.filterMap fun child => session.built? child.tree.name) = children)
    (name : String) (connective : Connective) :
    (⟨.combine name connective finished, session.heightOver finished⟩ : Built) =
      combineBuilt name connective children := by
  rw [Session.heightOver, hkept, hfinished]
  rfl

theorem Gathers.exact {session : Session} {depth : Nat} {name : String}
    {connective : Connective} {finished : List Resolved}
    (h : Gathers definitions limit session depth name connective finished [])
    (hexact : session.Keeps (Exact definitions limit session)) (hpos : 0 < depth)
    (hdepth : depth ≤ limit) :
    Exact definitions limit session name
        ⟨.combine name connective finished, session.heightOver finished⟩ ∧
      depth + session.heightOver finished ≤ limit + 1 := by
  obtain ⟨children, hfinished, hkept, hchildren⟩ := exists_built_of_held h.held
  have hbuilt := combine_heightOver hfinished hkept name connective
  have hheight : session.heightOver finished = (combineBuilt name connective children).height :=
    congrArg Built.height hbuilt
  have hcombines : definitions.Combines name connective
      (children.map fun child => child.tree.name) := by
    have hnames := h.combines
    rw [List.append_nil, hfinished, List.map_map] at hnames
    exact hnames
  have hroom : (combineBuilt name connective children).height ≤ limit - depth + 1 := by
    apply height_combineBuilt_le
    intro child hchild
    have hle := (hchildren child hchild).2
    omega
  rw [hbuilt, hheight]
  refine ⟨⟨hcombines.declares, ?_, by omega, ?_⟩, by omega⟩
  · apply Built.unfolds_combineBuilt hcombines
    intro child hchild
    exact (hexact _ child (hchildren child hchild).1).unfolds
  · have hallowed : connective.allows children.length = true := by
      have hlength := hcombines.allowed
      rw [List.length_map] at hlength
      exact hlength
    rw [children_combineBuilt name hallowed]
    intro tree htree
    obtain ⟨child, hchild, rfl⟩ := List.mem_map.1 htree
    exact ⟨child, (hchildren child hchild).1, rfl⟩

theorem exact_equals {session : Session} {name : String} {clause : Clause}
    (h : definitions.Compares name clause) (hlimit : 1 ≤ limit) :
    Exact definitions limit session name ⟨.equals name clause, 1⟩ :=
  ⟨h.declares, Built.unfolds_equals h, hlimit, fun _ hchild => absurd hchild List.not_mem_nil⟩

theorem exact_empty {session : Session} {name : String} {definition : Json}
    (hfound : Ordered.find? name definitions = some definition)
    (h : definitions.SaysNothing name) (hlimit : 1 ≤ limit) :
    Exact definitions limit session name ⟨.empty name, 1⟩ := by
  refine ⟨?_, Built.unfolds_empty h, hlimit, fun _ hchild => absurd hchild List.not_mem_nil⟩
  rw [Definitions.declares, hfound, Option.isSome_some]

/-! ## One step -/

namespace Walk.Orderly

variable {walk next : Walk}

theorem fits_of_stage (h : walk.Orderly definitions limit) {stage : Stage}
    (hstage : walk.stage = stage) :
    stage.Fits definitions limit walk.session walk.stack walk.name := by
  rw [← hstage]
  exact h.fits

/-- While a definition is open, its name stands in front of those that wait. -/
theorem stack_eq_cons (h : walk.Orderly definitions limit) {stage : Stage}
    (hstage : walk.stage = stage) (hown : stage.own walk.name = [walk.name]) :
    walk.stack = walk.name :: walk.pending.map Pending.name := by
  rw [h.stack_eq, hstage, hown]
  rfl

/-- Before that and behind it, the stack holds those that wait and no others. -/
theorem stack_eq_names (h : walk.Orderly definitions limit) {stage : Stage}
    (hstage : walk.stage = stage) (hown : stage.own walk.name = []) :
    walk.stack = walk.pending.map Pending.name := by
  rw [h.stack_eq, hstage, hown]
  rfl

/-- Then the stack is a path to the name. -/
theorem entered (h : walk.Orderly definitions limit) {stage : Stage}
    (hstage : walk.stage = stage) (hown : stage.own walk.name = []) :
    Entered definitions walk.stack walk.name := by
  refine ⟨?_, h.tidy.distinct⟩
  rw [h.stack_eq_names hstage hown]
  exact h.tidy.awaited.leads

theorem giveUp (h : walk.Orderly definitions limit)
    (hstack : walk.stack = walk.pending.map Pending.name) (cause : Finding) :
    (walk.giveUp cause).Orderly definitions limit :=
  ⟨h.tidy.report cause, hstack, trivial⟩

theorem enter (h : walk.Orderly definitions limit) (hstage : walk.stage = .entered) :
    (walk.enter definitions limit).Orderly definitions limit := by
  have hstack := h.stack_eq_names hstage rfl
  unfold Walk.enter
  cases hkept : walk.session.built? walk.name with dsimp only
  | some built =>
    by_cases hroom : walk.stack.length + built.height ≤ limit
    · rw [if_pos hroom]
      have hname := (h.tidy.exact _ _ hkept).unfolds.name_eq
      refine ⟨h.tidy, hstack, hname, fun _ => ⟨built, ?_, rfl, hroom⟩⟩
      rw [hname]
      exact hkept
    · rw [if_neg hroom]
      exact h.giveUp hstack _
  | none =>
    by_cases hopen : walk.name ∈ walk.stack
    · rw [if_pos hopen]
      exact h.giveUp hstack _
    rw [if_neg hopen]
    by_cases hfull : limit ≤ walk.stack.length
    · rw [if_pos hfull]
      exact h.giveUp hstack _
    rw [if_neg hfull]
    cases hfound : Ordered.find? walk.name definitions with dsimp only
    | none =>
      refine ⟨h.tidy.report _, hstack, rfl, fun hdeclared => ?_⟩
      rw [Definitions.declares, hfound] at hdeclared
      exact absurd hdeclared Bool.false_ne_true
    | some definition =>
      refine ⟨h.tidy.push ⟨hkept, hopen⟩ (Nat.lt_of_not_le hfull), ?_, hfound⟩
      rw [hstack]
      rfl

theorem read (h : walk.Orderly definitions limit) {definition : Json}
    (hstage : walk.stage = .opened definition) :
    (walk.read definitions definition).Orderly definitions limit := by
  have hstack := h.stack_eq_cons hstage rfl
  have hfound : Ordered.find? walk.name definitions = some definition := h.fits_of_stage hstage
  -- The name stands on the stack, so there is room for one condition at least.
  have hlimit : 1 ≤ limit := by
    have hle := h.tidy.length_le
    rw [hstack, List.length_cons] at hle
    omega
  have hroom : walk.stack.length + 1 ≤ limit + 1 := Nat.succ_le_succ h.tidy.length_le
  unfold Walk.read
  cases hread : Definition.ofJson definition with
  | error fault =>
    have hnothing := Definitions.saysNothing_of_error hfound hread
    exact ⟨h.tidy.report _, hstack, exact_empty hfound hnothing hlimit, hroom⟩
  | ok meaning =>
    cases meaning with dsimp only
    | comparison clause =>
      have hcompares := Definitions.compares_of_read hfound hread
      exact ⟨h.tidy, hstack, exact_equals hcompares hlimit, hroom⟩
    | combination connective targets =>
      obtain ⟨rfl, hallowed⟩ := Definition.ofJson_eq_combination_iff.1 hread
      split
      · rename_i hmissing
        have hcombines : definitions.Combines walk.name connective targets :=
          ⟨hfound, hallowed, Definitions.missing_eq_nil_iff.1 hmissing⟩
        exact ⟨h.tidy, hstack, hcombines, fun _ hchild => absurd hchild List.not_mem_nil⟩
      · rename_i hmissing
        have hnothing := Definitions.saysNothing_of_missing hfound hallowed hmissing
        exact ⟨h.tidy.reportAll _, hstack, exact_empty hfound hnothing hlimit, hroom⟩

theorem gather (h : walk.Orderly definitions limit) {connective : Connective}
    {finished : List Resolved} {waiting : List String}
    (hstage : walk.stage = .gathering connective finished waiting) :
    (walk.gather connective finished waiting).Orderly definitions limit := by
  have hstack := h.stack_eq_cons hstage rfl
  have hlength : walk.stack.length = walk.pending.length + 1 := by
    rw [hstack, List.length_cons, List.length_map]
  have hgathers : Gathers definitions limit walk.session walk.stack.length walk.name connective
      finished waiting := h.fits_of_stage hstage
  cases waiting with
  | nil =>
    have hexact := hgathers.exact h.tidy.exact (by omega) h.tidy.length_le
    exact ⟨h.tidy, hstack, hexact⟩
  | cons target waiting =>
    rw [hlength] at hgathers
    exact ⟨⟨⟨hgathers, h.tidy.awaited⟩, h.tidy.exact, h.tidy.unbuilt, h.tidy.distinct,
      h.tidy.length_le⟩, hstack, trivial⟩

theorem release (h : walk.Orderly definitions limit) {result : Except Finding Built}
    (hstage : walk.stage = .closed result) :
    (walk.release result).Orderly definitions limit := by
  have hstack := h.stack_eq_cons hstage rfl
  have htidy := h.tidy
  have hfits := h.fits_of_stage hstage
  rw [hstack] at htidy hfits
  have htail : walk.stack.tail = walk.pending.map Pending.name := by rw [hstack, List.tail_cons]
  -- The name was on the stack until now, so it has no tree, and it stood there once only.
  have hfresh : Fresh walk.session (walk.pending.map Pending.name) walk.name :=
    ⟨(List.forall_mem_cons.1 htidy.unbuilt).1, (List.nodup_cons.1 htidy.distinct).1⟩
  refine ⟨?_, htail, ?_⟩
  · rw [Walk.release, htail]
    exact htidy.pop
  · rw [Walk.release, htail]
    cases result with
    | error cause => trivial
    | ok built =>
      refine ⟨hfits.1, ?_, hfresh⟩
      have hroom := hfits.2
      rw [List.length_cons] at hroom
      show (walk.pending.map Pending.name).length + built.height ≤ limit
      omega

theorem settle (h : walk.Orderly definitions limit) {result : Except Finding Built}
    (hstage : walk.stage = .released result) :
    (walk.settle result).Orderly definitions limit := by
  have hstack := h.stack_eq_names hstage rfl
  cases result with
  | error cause =>
    refine ⟨?_, hstack, trivial⟩
    rw [Walk.settle]
    dsimp only
    split
    · exact h.tidy
    · exact h.tidy.report _
  | ok built =>
    obtain ⟨hexact, hroom, hfresh⟩ := h.fits_of_stage hstage
    have hname := hexact.unfolds.name_eq
    refine ⟨h.tidy.keep hfresh hexact, hstack, hname, fun _ => ⟨built, ?_, rfl, hroom⟩⟩
    rw [hname, Walk.settle, Session.built?_keep, if_pos rfl]

theorem resume (h : walk.Orderly definitions limit) {result : Except Finding Resolved}
    {pending : Pending} {rest : List Pending} (hstage : walk.stage = .returned result)
    (hpending : walk.pending = pending :: rest) :
    (walk.resume pending rest result).Orderly definitions limit := by
  have hstack : walk.stack = pending.name :: rest.map Pending.name := by
    have heq := h.stack_eq_names hstage rfl
    rw [hpending] at heq
    exact heq
  have htidy := h.tidy
  rw [hpending] at htidy
  obtain ⟨⟨hgathers, habove⟩, hexact, hunbuilt, hdistinct, hlength⟩ := htidy
  cases result with
  | error cause => exact ⟨⟨habove, hexact, hunbuilt, hdistinct, hlength⟩, hstack, trivial⟩
  | ok child =>
    obtain ⟨hname, hheld⟩ := h.fits_of_stage hstage
    refine ⟨⟨habove, hexact, hunbuilt, hdistinct, hlength⟩, hstack, ?_⟩
    -- A target of a combination is declared, so its tree has been kept.
    have hdeclared := hgathers.combines.declared walk.name
      (List.mem_append_right _ List.mem_cons_self)
    have hdepth : walk.stack.length = rest.length + 1 := by
      rw [hstack, List.length_cons, List.length_map]
    have hchild := hheld hdeclared
    rw [← hname, ← hdepth] at hgathers
    exact hgathers.finish hchild

/-- Every step keeps a walk orderly. -/
theorem step (h : walk.Orderly definitions limit)
    (hnext : walk.next? definitions limit = some next) : next.Orderly definitions limit := by
  unfold next? at hnext
  cases hstage : walk.stage with rw [hstage] at hnext
  | entered =>
    rw [← Option.some.inj hnext]
    exact h.enter hstage
  | opened definition =>
    rw [← Option.some.inj hnext]
    exact h.read hstage
  | gathering connective finished waiting =>
    rw [← Option.some.inj hnext]
    exact h.gather hstage
  | closed result =>
    rw [← Option.some.inj hnext]
    exact h.release hstage
  | released result =>
    rw [← Option.some.inj hnext]
    exact h.settle hstage
  | returned result =>
    cases hpending : walk.pending with simp only [hpending] at hnext
    | nil => exact absurd hnext (by simp)
    | cons pending rest =>
      rw [← Option.some.inj hnext]
      exact h.resume hstage hpending

end Walk.Orderly

/-! ## Whole runs -/

namespace Walk

theorem Run.orderly {pending : List Pending} {walk later : Walk}
    (h : Run definitions limit pending walk later) (horderly : walk.Orderly definitions limit) :
    later.Orderly definitions limit := by
  induction h with
  | refl => exact horderly
  | tail _ hstep ih => exact ih.step hstep.1

/-- Everything that is reached is orderly. -/
theorem Reached.orderly {history : List String} {walk : Walk}
    (h : Reached definitions limit history walk) : walk.Orderly definitions limit := by
  induction h with
  | first name =>
    refine ⟨⟨trivial, Session.keeps_new, ?_, List.nodup_nil, Nat.zero_le limit⟩, rfl, trivial⟩
    exact fun _ hupper => absurd hupper List.not_mem_nil
  | step _ hnext ih => exact ih.step hnext
  | again _ hpending hstage name ih =>
    have hstack := ih.stack_eq
    rw [hstage] at hstack
    obtain ⟨_, hexact, hunbuilt, hdistinct, hlength⟩ := ih.tidy
    refine ⟨⟨?_, hexact, hunbuilt, hdistinct, hlength⟩, hstack, trivial⟩
    rw [hpending]
    trivial

end Walk

end TemplateConditions
