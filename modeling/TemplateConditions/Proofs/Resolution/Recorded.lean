import Mathlib.Data.List.Nodup
import TemplateConditions.Proofs.Resolution.Trees

/-!
# What recorded findings show

Everything that resolution can record, as a relation: `Recorded` has one case for each way in which
a finding comes about, and says what is then true of the definitions.  A cycle or an excess of depth
is raised at the end of a path that leads there without a name twice, and every name on that path is
given up because of it.
-/

namespace TemplateConditions

variable {definitions : Definitions} {limit : Nat}

/-! ## Paths -/

/-- The path leads to the name and has no name twice. -/
structure Entered (definitions : Definitions) (path : List String) (name : String) : Prop where
  leads : LeadsTo definitions path name
  distinct : path.Nodup

theorem entered_top (definitions : Definitions) (name : String) : Entered definitions [] name :=
  ⟨List.isChain_singleton name, List.nodup_nil⟩

theorem Entered.below {path : List String} {name target : String}
    (h : Entered definitions path name) (hoff : name ∉ path)
    (hlive : definitions.LiveChild name target) : Entered definitions (name :: path) target :=
  ⟨h.leads.cons hlive, List.nodup_cons.2 ⟨hoff, h.distinct⟩⟩

/-- Read from its first name on, a path that leads to the name is a path of references. -/
theorem LeadsTo.live {path : List String} {name : String} (h : LeadsTo definitions path name) :
    definitions.LivePath (path.reverse ++ [name]) := by
  have hlive := List.isChain_reverse.2 h
  rw [List.reverse_cons] at hlive
  exact hlive

/-! ## Causes -/

/-- A finding that gives up the path on which the name is met.  Either the name stands on that path
already, or the room that the path has left is too small for every unfolded tree of the name. -/
inductive RaisedAt (definitions : Definitions) (limit : Nat) (path : List String) (name : String) :
    Finding → Prop
  | circular (hentered : Entered definitions path name) (hpath : name ∈ path) :
    RaisedAt definitions limit path name (.circularReference (cycleThrough name path))
  | tooDeep {room : Nat} (hentered : Entered definitions path name)
    (hroom : path.length + room = limit) (hexceeds : definitions.Exceeds room name) :
    RaisedAt definitions limit path name (.depthExceeded name limit)

/-- The finding is raised somewhere below all names of the path. -/
def RaisedBelow (definitions : Definitions) (limit : Nat) (path : List String)
    (cause : Finding) : Prop :=
  ∃ longer name, path <:+ longer ∧ RaisedAt definitions limit longer name cause

/-- The path to the name is given up because of the finding, here or further below. -/
def GivenUp (definitions : Definitions) (limit : Nat) (path : List String) (name : String)
    (cause : Finding) : Prop :=
  RaisedAt definitions limit path name cause ∨ RaisedBelow definitions limit (name :: path) cause

/-- A target gives up the path that leads to it. -/
theorem GivenUp.raisedBelow {path : List String} {target : String} {cause : Finding}
    (h : GivenUp definitions limit path target cause) :
    RaisedBelow definitions limit path cause := by
  rcases h with hhere | ⟨longer, name, hsuffix, hraised⟩
  · exact ⟨path, target, List.suffix_refl path, hhere⟩
  · exact ⟨longer, name, (List.suffix_cons target path).trans hsuffix, hraised⟩

/-! ## Findings -/

/-- A finding that can be recorded. -/
inductive Recorded (definitions : Definitions) (limit : Nat) : Finding → Prop
  | undeclared {name : String} (hfound : Ordered.find? name definitions = none) :
    Recorded definitions limit (.unknownCondition name)
  | refused {name : String} {definition : Json} {fault : Definition.Fault}
    (hfound : Ordered.find? name definitions = some definition)
    (hread : Definition.ofJson definition = .error fault) :
    Recorded definitions limit (.ofFault name fault)
  | dangling {name target : String} {connective : Connective} {targets : List String}
    (hfound : Ordered.find? name definitions =
      some (Definition.combinationToJson connective targets))
    (hallowed : connective.allows targets.length = true)
    (hmissing : target ∈ definitions.missing targets) :
    Recorded definitions limit (.danglingReference name target)
  | raised {path : List String} {name : String} {cause : Finding}
    (hraised : RaisedAt definitions limit path name cause) : Recorded definitions limit cause
  | degraded {path : List String} {name : String} {cause : Finding}
    (hraised : RaisedBelow definitions limit (name :: path) cause)
    (hconcerns : ¬ cause.concerns name = true) :
    Recorded definitions limit (.degraded name cause)

/-- A finding about a cycle was raised where that cycle closed. -/
theorem Recorded.of_circular {cycle : List String}
    (h : Recorded definitions limit (.circularReference cycle)) :
    ∃ path name, Entered definitions path name ∧ name ∈ path ∧ cycle = cycleThrough name path := by
  generalize hfinding : Finding.circularReference cycle = finding at h
  cases h with
  | undeclared | dangling | degraded => cases hfinding
  | refused =>
    rename_i fault _ _
    cases fault <;> cases hfinding
  | raised hraised =>
    cases hraised with
    | circular hentered hpath =>
      cases hfinding
      exact ⟨_, _, hentered, hpath, rfl⟩
    | tooDeep => cases hfinding

/-- A finding about a degraded condition has a cause that was raised below it. -/
theorem Recorded.of_degraded {name : String} {cause : Finding}
    (h : Recorded definitions limit (.degraded name cause)) :
    ∃ path, RaisedBelow definitions limit (name :: path) cause := by
  generalize hfinding : Finding.degraded name cause = finding at h
  cases h with
  | undeclared | dangling => cases hfinding
  | refused =>
    rename_i fault _ _
    cases fault <;> cases hfinding
  | raised hraised => cases hraised <;> cases hfinding
  | degraded hraised =>
    cases hfinding
    exact ⟨_, hraised⟩

/-! ## Visits -/

namespace Session

/-- Everything that the session has recorded could be recorded. -/
def Records (definitions : Definitions) (limit : Nat) (session : Session) : Prop :=
  ∀ finding ∈ session.findings, Recorded definitions limit finding

theorem records_new (definitions : Definitions) (limit : Nat) :
    ({} : Session).Records definitions limit :=
  fun _ hfinding => absurd hfinding List.not_mem_nil

variable {session : Session}

theorem Records.report (h : session.Records definitions limit) {finding : Finding}
    (hfinding : Recorded definitions limit finding) :
    (session.report finding).Records definitions limit := by
  intro other hother
  rcases mem_findings_report.1 hother with hold | rfl
  · exact h other hold
  · exact hfinding

theorem Records.reportAll (h : session.Records definitions limit) {findings : List Finding}
    (hfindings : ∀ finding ∈ findings, Recorded definitions limit finding) :
    (session.reportAll findings).Records definitions limit := by
  intro other hother
  rcases mem_findings_reportAll.1 hother with hold | hnew
  · exact h other hold
  · exact hfindings other hnew

end Session

/-- What the visit of a name records, and why it is given up. -/
structure Attests (definitions : Definitions) (limit : Nat) (path : List String) (name : String)
    (outcome : Outcome Built) : Prop where
  records : outcome.1.Records definitions limit
  givenUp : ∀ cause, outcome.2 = .error cause → GivenUp definitions limit path name cause

theorem Attests.of_ok {path : List String} {name : String} {session : Session} {built : Built}
    (h : session.Records definitions limit) :
    Attests definitions limit path name (session, .ok built) :=
  ⟨h, fun _ hcause => absurd hcause (by simp)⟩

/-- Where a path is given up, the cause is what is recorded. -/
theorem attests_giveUp {path : List String} {name : String} {session : Session} {cause : Finding}
    (h : session.Records definitions limit)
    (hraised : RaisedAt definitions limit path name cause) :
    Attests definitions limit path name (.giveUp session cause) := by
  refine ⟨h.report (.raised hraised), fun other hother => ?_⟩
  rw [← Except.error.inj hother]
  exact .inl hraised

theorem visitEach_attests {path : List String} {session : Session} {names : List String}
    {outcome : Outcome (List Built)}
    (h : VisitEach (fun session name outcome => session.Sound definitions →
      session.Records definitions limit →
        outcome.1.Sound definitions ∧ Attests definitions limit path name outcome)
      session names outcome)
    (hsound : session.Sound definitions) (hrecords : session.Records definitions limit) :
    outcome.1.Records definitions limit ∧
      ∀ cause, outcome.2 = .error cause → RaisedBelow definitions limit path cause := by
  induction h with
  | done => exact ⟨hrecords, fun _ hcause => absurd hcause (by simp)⟩
  | stop hfirst =>
    have hattests := (hfirst hsound hrecords).2
    refine ⟨hattests.records, fun cause hcause => ?_⟩
    exact (hattests.givenUp cause (by rw [Except.error.inj hcause])).raisedBelow
  | stopLater hfirst _ ih =>
    have hbetween := hfirst hsound hrecords
    exact ih hbetween.1 hbetween.2.records
  | more hfirst _ ih =>
    have hbetween := hfirst hsound hrecords
    exact ⟨(ih hbetween.1 hbetween.2.records).1, fun _ hcause => absurd hcause (by simp)⟩

/-- What is known of every visit that comes from a sound session along a path to the name. -/
def SettledVisit (definitions : Definitions) (room : Nat) (path : List String) (session : Session)
    (name : String) (outcome : Outcome Built) : Prop :=
  session.Sound definitions → LeadsTo definitions path name →
    outcome.1.Sound definitions ∧ Settles definitions room name outcome.2

/-- What is shown of every visit: within the limit, it attests what it records. -/
def AttestedVisit (definitions : Definitions) (limit room : Nat) (path : List String)
    (session : Session) (name : String) (outcome : Outcome Built) : Prop :=
  session.Sound definitions → Entered definitions path name → path.length + room = limit →
    session.Records definitions limit → Attests definitions limit path name outcome

/-- The targets of a combination are visited along the path to its name and that name itself. -/
theorem targets_attest {room : Nat} {path : List String} {session : Session} {name : String}
    {connective : Connective} {targets : List String} {outcome : Outcome (List Built)}
    (hoff : name ∉ path) (hcombines : definitions.Combines name connective targets)
    (h : VisitEach (fun session target outcome =>
      SettledVisit definitions room (name :: path) session target outcome ∧
        AttestedVisit definitions limit room (name :: path) session target outcome)
      session targets outcome)
    (hsound : session.Sound definitions) (hentered : Entered definitions path name)
    (hroom : path.length + (room + 1) = limit) (hrecords : session.Records definitions limit) :
    outcome.1.Records definitions limit ∧
      ∀ cause, outcome.2 = .error cause →
        RaisedBelow definitions limit (name :: path) cause := by
  refine visitEach_attests (h.imp fun session target htarget outcome hvisit hsound hrecords => ?_)
    hsound hrecords
  have hbelow : Entered definitions (name :: path) target :=
    hentered.below hoff ⟨connective, targets, hcombines, htarget⟩
  have hless : (name :: path).length + room = limit := by
    rw [List.length_cons]
    omega
  exact ⟨(hvisit.1 hsound hbelow.leads).1, hvisit.2 hsound hbelow hless hrecords⟩

/-- One step: if the visits of the targets attest what they record, the visit of the name does.
That the room is too small where a path is given up is known already. -/
theorem visit_attests {room : Nat} {path : List String} {session : Session} {name : String}
    {outcome : Outcome Built} (hsettled : SettledVisit definitions room path session name outcome)
    (h : Visit definitions (fun room path session name outcome =>
      SettledVisit definitions room path session name outcome ∧
        AttestedVisit definitions limit room path session name outcome)
      room path session name outcome) :
    AttestedVisit definitions limit room path session name outcome := by
  intro hsound hentered hroom hrecords
  have hsettles : Settles definitions room name outcome.2 := (hsettled hsound hentered.leads).2
  cases h with
  | reused => exact .of_ok hrecords
  | tooHigh =>
    -- The finding names the limit, which the path and its room add up to.
    rw [hroom]
    exact attests_giveUp hrecords (.tooDeep hentered hroom hsettles)
  | circular _ hpath => exact attests_giveUp hrecords (.circular hentered hpath)
  | tooDeep =>
    have hlimit : path.length = limit := hroom
    rw [hlimit]
    exact attests_giveUp hrecords (.tooDeep hentered hroom hsettles)
  | undeclared _ hfound => exact .of_ok (hrecords.report (.undeclared hfound))
  | malformed _ hfound hread => exact .of_ok (hrecords.report (.refused hfound hread))
  | comparison => exact .of_ok hrecords
  | dangling _ hfound hallowed =>
    have hfindings := hrecords.reportAll (List.forall_mem_map.2 fun target htarget =>
      Recorded.dangling hfound hallowed htarget)
    exact .of_ok hfindings
  | combined hfresh hcombines hbelow =>
    have htargets :=
      targets_attest hfresh.offPath hcombines hbelow hsound hentered hroom hrecords
    exact .of_ok htargets.1
  | degraded hfresh hcombines hbelow =>
    rename_i cause
    have htargets :=
      targets_attest hfresh.offPath hcombines hbelow hsound hentered hroom hrecords
    have hraised : RaisedBelow definitions limit (name :: path) cause := htargets.2 cause rfl
    -- The cause was recorded where it was raised; it is only passed on here.
    constructor
    · split
      · exact htargets.1
      · rename_i hconcerns
        exact htargets.1.report (.degraded hraised hconcerns)
    · intro other hother
      rw [← Except.error.inj hother]
      exact .inr hraised

theorem resolveBelow_settled (definitions : Definitions) (room : Nat) (path : List String)
    (session : Session) (name : String) :
    SettledVisit definitions room path session name
      (resolveBelow definitions room path session name) :=
  fun hsound hpath => resolveBelow_settles room hsound hpath

theorem resolveBelow_attests (definitions : Definitions) (limit room : Nat) (path : List String)
    (session : Session) (name : String) :
    AttestedVisit definitions limit room path session name
      (resolveBelow definitions room path session name) :=
  resolveBelow_induction_knowing (resolveBelow_settled definitions)
    (fun hsettled h => visit_attests hsettled h) room path session name

/-! ## Resolution from the top -/

namespace Session

theorem resolve_records {session : Session} (name : String) (hsound : session.Sound definitions)
    (hrecords : session.Records definitions limit) :
    (session.resolve definitions limit name).1.Records definitions limit := by
  have hattests := resolveBelow_attests definitions limit limit [] session name hsound
    (entered_top definitions name) (Nat.zero_add limit) hrecords
  rw [resolve_fst]
  exact hattests.records

/-- A run records nothing but what can be recorded. -/
theorem resolveAll_records {session : Session} (names : List String)
    (hsound : session.Sound definitions) (hrecords : session.Records definitions limit) :
    (session.resolveAll definitions limit names).1.Records definitions limit := by
  induction names generalizing session with
  | nil => exact hrecords
  | cons name rest ih =>
    have hafter := (resolve_standsFor limit name hsound).1
    exact ih hafter (resolve_records name hsound hrecords)

end Session

theorem recorded_of_mem_resolveAll {names : List String} {finding : Finding}
    (h : finding ∈ (Session.resolveAll definitions limit {} names).1.findings) :
    Recorded definitions limit finding :=
  Session.resolveAll_records names Session.keeps_new (Session.records_new definitions limit)
    finding h

end TemplateConditions
