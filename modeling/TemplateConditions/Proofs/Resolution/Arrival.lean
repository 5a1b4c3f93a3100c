import TemplateConditions.Proofs.Resolution.Calls
import TemplateConditions.Proofs.Resolution.Orderly

/-!
# Where calls arrive

A walk that enters a name comes back to the stack that it entered with, and what it returns there is
what resolution below that stack returns.  So a walk that resolves names one after the other passes
through the sessions that resolution passes from one name to the next.
-/

namespace TemplateConditions

variable {definitions : Definitions} {limit : Nat}

/-- Within the limit, an orderly walk that enters the name runs on to its return, with this outcome
and above the same stack. -/
def Arrives (definitions : Definitions) (limit room : Nat) (path : List String)
    (session : Session) (name : String) (outcome : Outcome Built) : Prop :=
  ∀ pending : List Pending, path.length + room = limit →
    Walk.Orderly definitions limit ⟨session, path, pending, name, .entered⟩ →
      Walk.Run definitions limit pending ⟨session, path, pending, name, .entered⟩
        ⟨outcome.1, path, pending, name, .returned (outcome.2.map Built.toResolved)⟩

namespace Walk

variable {pending : List Pending} {path : List String} {session after : Session} {name : String}

/-! ## Single steps -/

theorem run_of_enter {next : Walk}
    (h : (⟨session, path, pending, name, .entered⟩ : Walk).enter definitions limit = next)
    (hpending : next.pending = pending) :
    Run definitions limit pending ⟨session, path, pending, name, .entered⟩ next :=
  .single ⟨congrArg some h, hpending ▸ List.suffix_refl _⟩

theorem run_of_read {definition : Json} {next : Walk}
    (h : (⟨session, path, pending, name, .opened definition⟩ : Walk).read definitions definition =
      next) (hpending : next.pending = pending) :
    Run definitions limit pending ⟨session, path, pending, name, .opened definition⟩ next :=
  .single ⟨congrArg some h, hpending ▸ List.suffix_refl _⟩

/-- A new name with room for it is put on the stack. -/
theorem run_opened {definition : Json} (hfresh : Fresh session path name)
    (hroom : path.length < limit) (hfound : Ordered.find? name definitions = some definition) :
    Run definitions limit pending ⟨session, path, pending, name, .entered⟩
      ⟨session, name :: path, pending, name, .opened definition⟩ := by
  refine run_of_enter ?_ rfl
  simp only [enter, hfresh.unbuilt, if_neg hfresh.offPath, if_neg (Nat.not_le_of_lt hroom), hfound]

/-- The name is taken off the stack again, and its tree is kept. -/
theorem run_kept (definitions : Definitions) (limit : Nat) (built : Built) :
    Run definitions limit pending ⟨session, name :: path, pending, name, .closed (.ok built)⟩
      ⟨session.keep name built, path, pending, name, .returned (.ok built.toResolved)⟩ :=
  .head ⟨rfl, List.suffix_refl pending⟩ (.single ⟨rfl, List.suffix_refl pending⟩)

/-- A definition that calls for no target has its tree as soon as it is read. -/
theorem run_of_closed {definition : Json} {built : Built} (hfresh : Fresh session path name)
    (hroom : path.length < limit) (hfound : Ordered.find? name definitions = some definition)
    (hread : (⟨session, name :: path, pending, name, .opened definition⟩ : Walk).read definitions
      definition = ⟨after, name :: path, pending, name, .closed (.ok built)⟩) :
    Run definitions limit pending ⟨session, path, pending, name, .entered⟩
      ⟨after.keep name built, path, pending, name, .returned (.ok built.toResolved)⟩ := by
  apply (run_opened hfresh hroom hfound).trans
  apply (run_of_read hread rfl).trans
  exact run_kept definitions limit built

/-- The name is taken off the stack again, and given up. -/
theorem run_degraded (definitions : Definitions) (limit : Nat) (cause : Finding) :
    Run definitions limit pending ⟨session, name :: path, pending, name, .closed (.error cause)⟩
      ⟨if cause.concerns name then session else session.report (.degraded name cause), path,
        pending, name, .returned (.error cause)⟩ :=
  .head ⟨rfl, List.suffix_refl pending⟩ (.single ⟨rfl, List.suffix_refl pending⟩)

/-! ## Targets -/

/-- The stage of a combination after some of its targets. -/
def gathered (connective : Connective) (finished : List Resolved) (waiting : List String) :
    Except Finding (List Built) → Stage
  | .ok children => .gathering connective (finished ++ children.map Built.toResolved) waiting
  | .error cause => .closed (.error cause)

/-- One target: the combination is set aside, and taken up again when the target returns. -/
theorem run_target {room : Nat} {target : String} {connective : Connective}
    {finished : List Resolved} {waiting : List String} {outcome : Outcome Built}
    (h : Arrives definitions limit room path session target outcome)
    (hroom : path.length + room = limit)
    (horderly : Orderly definitions limit
      ⟨session, path, pending, name, .gathering connective finished (target :: waiting)⟩) :
    Run definitions limit pending
      ⟨session, path, pending, name, .gathering connective finished (target :: waiting)⟩
      (resume ⟨outcome.1, path, ⟨name, connective, finished, waiting⟩ :: pending, target,
        .returned (outcome.2.map Built.toResolved)⟩ ⟨name, connective, finished, waiting⟩ pending
        (outcome.2.map Built.toResolved)) := by
  have hcall : Inside definitions limit pending
      ⟨session, path, pending, name, .gathering connective finished (target :: waiting)⟩
      ⟨session, path, ⟨name, connective, finished, waiting⟩ :: pending, target, .entered⟩ :=
    ⟨rfl, List.suffix_cons _ _⟩
  have hbelow := (h _ hroom (horderly.step hcall.1)).mono
    (List.suffix_cons ⟨name, connective, finished, waiting⟩ pending)
  refine (Relation.ReflTransGen.head hcall hbelow).tail ⟨rfl, ?_⟩
  cases outcome.2 <;> exact List.suffix_refl pending

theorem run_targets {room : Nat} {connective : Connective} {names : List String}
    {outcome : Outcome (List Built)}
    (h : VisitEach (Arrives definitions limit room path) session names outcome)
    (hroom : path.length + room = limit) {finished : List Resolved} {waiting : List String}
    (horderly : Orderly definitions limit
      ⟨session, path, pending, name, .gathering connective finished (names ++ waiting)⟩) :
    Run definitions limit pending
      ⟨session, path, pending, name, .gathering connective finished (names ++ waiting)⟩
      ⟨outcome.1, path, pending, name, gathered connective finished waiting outcome.2⟩ := by
  induction h generalizing finished with
  | done session =>
    rw [gathered, List.map_nil, List.append_nil, List.nil_append]
  | stop hfirst => exact run_target hfirst hroom horderly
  | stopLater hfirst _ ih =>
    have htarget := run_target hfirst hroom horderly
    exact htarget.trans (ih (htarget.orderly horderly))
  | @more _ _ _ _ _ built others hfirst _ ih =>
    have htarget := run_target hfirst hroom horderly
    have hrest := ih (htarget.orderly horderly)
    rw [gathered, List.append_assoc] at hrest
    exact htarget.trans hrest

/-- A combination of declared targets, up to some of them. -/
theorem run_combination {room : Nat} {connective : Connective}
    {targets passed waiting : List String} {outcome : Outcome (List Built)}
    (hfresh : Fresh session path name) (hroom : path.length + (room + 1) = limit)
    (hcombines : definitions.Combines name connective targets)
    (hsplit : passed ++ waiting = targets)
    (h : VisitEach (Arrives definitions limit room (name :: path)) session passed outcome)
    (horderly : Orderly definitions limit ⟨session, path, pending, name, .entered⟩) :
    Run definitions limit pending ⟨session, path, pending, name, .entered⟩
      ⟨outcome.1, name :: path, pending, name,
        gathered connective [] waiting outcome.2⟩ := by
  subst hsplit
  have hread := Definition.ofJson_eq_combination_iff.2 ⟨rfl, hcombines.allowed⟩
  have hmissing := Definitions.missing_eq_nil_iff.2 hcombines.declared
  have hlength : (name :: path).length + room = limit := by
    rw [List.length_cons]
    omega
  have hstart : Run definitions limit pending ⟨session, path, pending, name, .entered⟩
      ⟨session, name :: path, pending, name, .gathering connective [] (passed ++ waiting)⟩ := by
    apply (run_opened hfresh (by omega) hcombines.written).trans
    refine run_of_read ?_ rfl
    simp only [read, hread, hmissing]
  exact hstart.trans (run_targets h hlength (hstart.orderly horderly))

end Walk

/-! ## Visits -/

/-- Heights that are those of the trees can be told from the trees. -/
theorem map_height_eq {builts : List Built}
    (h : ∀ built ∈ builts, built.height = built.tree.height) :
    builts.map Built.height =
      (builts.map Built.toResolved).map fun resolved => resolved.tree.height := by
  rw [List.map_map]
  exact List.map_congr_left h

/-- The heights that the session keeps are those of the children that resolution returned. -/
theorem Gathers.combine_eq_combineBuilt {session : Session} {depth : Nat} {name : String}
    {connective : Connective} {children : List Built}
    (h : Gathers definitions limit session depth name connective
      (children.map Built.toResolved) [])
    (hexact : session.Keeps (Exact definitions limit session))
    (hheights : ∀ child ∈ children, child.height = child.tree.height) :
    (⟨.combine name connective (children.map Built.toResolved),
      session.heightOver (children.map Built.toResolved)⟩ : Built) =
      combineBuilt name connective children := by
  obtain ⟨kept, hsame, hkept, hheld⟩ := exists_built_of_held h.held
  have hkeptHeights : ∀ built ∈ kept, built.height = built.tree.height :=
    fun built hbuilt => (hexact _ built (hheld built hbuilt).1).unfolds.height_eq
  rw [combine_heightOver hsame hkept, combineBuilt, combineBuilt, map_height_eq hkeptHeights,
    map_height_eq hheights, hsame]

/-- What is known of the visit of a target, and what is shown of every visit. -/
def ArrivedVisit (definitions : Definitions) (limit room : Nat) (path : List String)
    (session : Session) (name : String) (outcome : Outcome Built) : Prop :=
  SettledVisit definitions room path session name outcome ∧
    Arrives definitions limit room path session name outcome

theorem targets_heights {room : Nat} {path : List String} {session after : Session}
    {name : String} {connective : Connective} {targets : List String} {children : List Built}
    (hcombines : definitions.Combines name connective targets)
    (h : VisitEach (ArrivedVisit definitions limit room (name :: path)) session targets
      (after, .ok children))
    (hsound : session.Sound definitions) (hleads : LeadsTo definitions path name) :
    ∀ child ∈ children, child.height = child.tree.height := by
  have hsettled := visitEach_settles (h.imp fun _ _ htarget _ hvisit hsound =>
    hvisit.1 hsound (hleads.cons ⟨_, _, hcombines, htarget⟩)) hsound
  exact fun child hchild => (hsettled.2.2 child hchild).1.height_eq

/-- One step: if the visits of the targets arrive, the visit of the name does. -/
theorem visit_arrives {room : Nat} {path : List String} {session : Session} {name : String}
    {outcome : Outcome Built}
    (h : Visit definitions (ArrivedVisit definitions limit) room path session name outcome) :
    Arrives definitions limit room path session name outcome := by
  intro pending hlimit horderly
  cases h with
  | @reused _ _ _ _ built hbuilt hroom =>
    refine Walk.run_of_enter ?_ rfl
    have hfits : path.length + built.height ≤ limit := by omega
    simp only [Walk.enter, hbuilt, if_pos hfits]
    rfl
  | @tooHigh _ _ _ _ built hbuilt hroom =>
    refine Walk.run_of_enter ?_ rfl
    have hfits : ¬ path.length + built.height ≤ limit := by omega
    simp only [Walk.enter, hbuilt, if_neg hfits, hlimit]
    rfl
  | circular hunbuilt hpath =>
    refine Walk.run_of_enter ?_ rfl
    simp only [Walk.enter, hunbuilt, if_pos hpath]
    rfl
  | tooDeep hfresh =>
    refine Walk.run_of_enter ?_ rfl
    have hfull : limit ≤ path.length := by omega
    have heq : limit = path.length := by omega
    simp only [Walk.enter, hfresh.unbuilt, if_neg hfresh.offPath, if_pos hfull]
    rw [heq]
    rfl
  | undeclared hfresh hfound =>
    refine Walk.run_of_enter ?_ rfl
    have hroom : ¬ limit ≤ path.length := by omega
    simp only [Walk.enter, hfresh.unbuilt, if_neg hfresh.offPath, if_neg hroom, hfound]
    rfl
  | malformed hfresh hfound hread =>
    apply Walk.run_of_closed hfresh (by omega) hfound
    simp only [Walk.read, hread]
  | comparison hfresh hcompares =>
    obtain ⟨definition, hfound, hread⟩ := hcompares.read
    apply Walk.run_of_closed hfresh (by omega) hfound
    simp only [Walk.read, hread]
  | dangling hfresh hfound hallowed hmissing =>
    have hread := Definition.ofJson_eq_combination_iff.2 ⟨rfl, hallowed⟩
    apply Walk.run_of_closed hfresh (by omega) hfound
    simp only [Walk.read, hread]
  | @combined room _ _ after _ connective targets children hfresh hcombines hbelow =>
    have hgathered := Walk.run_combination hfresh hlimit hcombines (List.append_nil targets)
      (hbelow.imp fun _ _ _ _ hvisit => hvisit.2) horderly
    have hjoined := hgathered.orderly horderly
    have hheights := targets_heights hcombines hbelow horderly.tidy.sound
      (horderly.entered rfl rfl).leads
    have hbuilt := Gathers.combine_eq_combineBuilt hjoined.fits hjoined.tidy.exact hheights
    -- The last step joins the children, with the heights that the session keeps by now.
    have hclosed : Walk.Inside definitions limit pending
        ⟨after, name :: path, pending, name, Walk.gathered connective [] [] (.ok children)⟩
        ⟨after, name :: path, pending, name,
          .closed (.ok (combineBuilt name connective children))⟩ := by
      refine ⟨?_, List.suffix_refl pending⟩
      rw [← hbuilt]
      rfl
    exact (hgathered.tail hclosed).trans (Walk.run_kept definitions limit _)
  | degraded hfresh hcombines hbelow =>
    have hgathered := Walk.run_combination hfresh hlimit hcombines (List.append_nil _)
      (hbelow.imp fun _ _ _ _ hvisit => hvisit.2) horderly
    exact hgathered.trans (Walk.run_degraded definitions limit _)

theorem resolveBelow_arrives (definitions : Definitions) (limit room : Nat) (path : List String)
    (session : Session) (name : String) :
    Arrives definitions limit room path session name
      (resolveBelow definitions room path session name) :=
  resolveBelow_induction_knowing (resolveBelow_settled definitions)
    (fun _ h => visit_arrives h) room path session name

namespace Walk

/-- The walk behind a call that was entered, as resolution below its stack leaves it. -/
def arrival (definitions : Definitions) (limit : Nat) (walk : Walk) : Walk :=
  let outcome := resolveBelow definitions (limit - walk.stack.length) walk.stack walk.session
    walk.name
  { walk with session := outcome.1, stage := .returned (outcome.2.map Built.toResolved) }

theorem Orderly.run_arrival {walk : Walk} (h : walk.Orderly definitions limit)
    (hstage : walk.stage = .entered) :
    Run definitions limit walk.pending walk (walk.arrival definitions limit) := by
  obtain ⟨session, stack, pending, name, stage⟩ := walk
  obtain rfl : stage = .entered := hstage
  exact resolveBelow_arrives definitions limit (limit - stack.length) stack session name pending
    (Nat.add_sub_of_le h.tidy.length_le) h

/-- Behind a call nothing is left to do within it. -/
theorem arrival_last (definitions : Definitions) (limit : Nat) (walk : Walk) :
    ∀ next, ¬ Inside definitions limit walk.pending (walk.arrival definitions limit) next := by
  intro next hstep
  obtain ⟨hnext, hsuffix⟩ := hstep
  cases hpending : walk.pending with simp only [arrival, next?, hpending] at hnext
  | nil => exact absurd hnext (by simp)
  | cons first rest =>
    -- The only step left closes the call.
    rw [← Option.some.inj hnext, pending_resume, hpending] at hsuffix
    have hle := hsuffix.length_le
    rw [List.length_cons] at hle
    omega

end Walk

/-! ## Resolution from the top -/

theorem Session.resolveAll_concat (definitions : Definitions) (limit : Nat) (session : Session)
    (names : List String) (name : String) :
    (session.resolveAll definitions limit (names ++ [name])).1 =
      ((session.resolveAll definitions limit names).1.resolve definitions limit name).1 := by
  induction names generalizing session with
  | nil => rfl
  | cons first rest ih => exact ih (session.resolve definitions limit first).1

namespace Walk

/-- What is reached lies on the run of the current call from the top, which starts with the session
that the earlier resolutions have left. -/
theorem Reached.exists_top {history : List String} {walk : Walk}
    (h : Reached definitions limit history walk) :
    ∃ name, Reached definitions limit history
        ⟨(Session.resolveAll definitions limit {} history).1, [], [], name, .entered⟩ ∧
      Run definitions limit []
        ⟨(Session.resolveAll definitions limit {} history).1, [], [], name, .entered⟩ walk := by
  induction h with
  | first name => exact ⟨name, .first name, .refl⟩
  | step _ hnext ih =>
    obtain ⟨name, htop, hrun⟩ := ih
    exact ⟨name, htop, hrun.tail ⟨hnext, List.nil_suffix⟩⟩
  | @again history walk result h hpending hstage next ih =>
    obtain ⟨name, htop, hrun⟩ := ih
    have hlast : ∀ other, ¬ Inside definitions limit [] walk other := by
      intro other hstep
      have hnext := hstep.1
      simp only [next?, hstage, hpending] at hnext
      exact absurd hnext (by simp)
    -- The call from the top has come to its end, and there is only one.
    have hwalk := (htop.orderly.run_arrival rfl).eq_of_last (arrival_last definitions limit _)
      hrun hlast
    have hagain := h.again hpending hstage next
    have hnext : ({ walk with name := next, stage := .entered } : Walk) =
        ⟨(Session.resolveAll definitions limit {} (history ++ [walk.name])).1, [], [], next,
          .entered⟩ := by
      rw [Session.resolveAll_concat, Session.resolve_fst, hwalk]
      rfl
    rw [hnext] at hagain ⊢
    exact ⟨next, hagain, .refl⟩

theorem Reached.run {history : List String} {pending : List Pending} {walk later : Walk}
    (h : Reached definitions limit history walk)
    (hrun : Run definitions limit pending walk later) :
    Reached definitions limit history later := by
  induction hrun with
  | refl => exact h
  | tail _ hstep ih => exact ih.step hstep.1

/-- Any name can be asked for after any others. -/
theorem reached_top (definitions : Definitions) (limit : Nat) (history : List String)
    (name : String) :
    Reached definitions limit history
      ⟨(Session.resolveAll definitions limit {} history).1, [], [], name, .entered⟩ := by
  induction history using List.reverseRecOn generalizing name with
  | nil => exact .first name
  | append_singleton earlier last ih =>
    have hreturned := (ih last).run ((ih last).orderly.run_arrival rfl)
    rw [Session.resolveAll_concat, Session.resolve_fst]
    exact hreturned.again rfl rfl name

/-- A call that is made by a call on the walk is on the walk too. -/
theorem Reached.nested {history : List String} {pending : List Pending} {call below : Call}
    (h : Reached definitions limit history
      ⟨call.session, call.path, pending, call.name, .entered⟩)
    (hnested : Call.Nested definitions call below)
    (hroom : call.path.length + call.room = limit) :
    ∃ between, Reached definitions limit history
      ⟨below.session, below.path, between, below.name, .entered⟩ := by
  cases hnested with
  | @target room path session between name connective passed target rest children hfresh hcombines
      hpassed =>
    have hvisits := visitEach_resolveEach (resolveBelow_arrives definitions limit room (name :: path))
      session passed
    rw [hpassed] at hvisits
    have hgathered := run_combination hfresh hroom hcombines rfl hvisits h.orderly
    exact ⟨_, (h.run hgathered).step rfl⟩

/-- Every call that resolution makes after a history is a name that is entered on the walk, with the
same session and above the same stack. -/
theorem reached_of_reaches {history : List String} {name : String} {call : Call}
    (h : Call.Reaches definitions
      (Call.top limit (Session.resolveAll definitions limit {} history).1 name) call) :
    call.path.length + call.room = limit ∧
      ∃ pending, Reached definitions limit history
        ⟨call.session, call.path, pending, call.name, .entered⟩ := by
  induction h with
  | refl => exact ⟨Nat.zero_add limit, [], reached_top definitions limit history name⟩
  | tail _ hnested ih =>
    obtain ⟨hroom, pending, hreached⟩ := ih
    exact ⟨hnested.length_add_room.trans hroom, hreached.nested hnested hroom⟩

end Walk

end TemplateConditions
