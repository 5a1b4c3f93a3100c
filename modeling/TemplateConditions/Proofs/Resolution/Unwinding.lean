import TemplateConditions.Proofs.Resolution.Calls
import TemplateConditions.Proofs.Resolution.Degradation

/-!
# Unwinding

A resolution that is given up is given up once.  The innermost call raises the cause, and then every
open call passes it on and reports its own condition, from the last one back to the first.  So the
findings of a single resolution are faults of definitions, and, if it was given up, the cause behind
them and the conditions that went down with it.
-/

namespace TemplateConditions

variable {definitions : Definitions} {limit : Nat}

/-! ## Findings of a path -/

/-- The conditions of a path that go down because of a cause, apart from those that it concerns. -/
def Finding.fallout (cause : Finding) (path : List String) : List Finding :=
  (path.filter fun name => !cause.concerns name).map fun name => .degraded name cause

theorem Finding.fallout_concat (cause : Finding) (path : List String) (name : String) :
    cause.fallout (path ++ [name]) = cause.fallout path ++ cause.blame name := by
  rw [fallout, List.filter_append, List.map_append, fallout, blame]
  by_cases h : cause.concerns name = true
  · simp [h]
  · simp [h]

theorem Finding.nodup_fallout (cause : Finding) {path : List String} (h : path.Nodup) :
    (cause.fallout path).Nodup := by
  refine (h.filter _).map fun name other heq => ?_
  exact (Finding.degraded.inj heq).1

theorem Finding.aboutPath_of_mem_fallout {cause finding : Finding} {path : List String}
    (h : finding ∈ cause.fallout path) : finding.AboutPath := by
  obtain ⟨name, _, rfl⟩ := List.mem_map.1 h
  trivial

/-- Findings that are new and all different are appended. -/
theorem Session.findings_reportAll_of_new {session : Session} {found : List Finding}
    (hnew : ∀ finding ∈ found, finding ∉ session.findings) (hnodup : found.Nodup) :
    (session.reportAll found).findings = session.findings ++ found := by
  induction found generalizing session with
  | nil => exact (List.append_nil _).symm
  | cons finding rest ih =>
    obtain ⟨hfinding, hrest⟩ := List.forall_mem_cons.1 hnew
    obtain ⟨hother, hnodup⟩ := List.nodup_cons.1 hnodup
    have hreport : (session.report finding).findings = session.findings ++ [finding] := by
      rw [findings_report, if_neg hfinding]
    have hlater : ∀ other ∈ rest, other ∉ (session.report finding).findings := by
      intro other hmem hrecorded
      rcases mem_findings_report.1 hrecorded with hold | rfl
      · exact hrest other hmem hold
      · exact hother hmem
    show ((session.report finding).reportAll rest).findings = _
    rw [ih hlater hnodup, hreport, List.append_assoc, List.singleton_append]

/-! ## The call that raises the cause -/

namespace Call

/-- The call gives up its path by itself: its name has a tree that is too high for the room, or
stands on the path already, or there is no room at all. -/
inductive Raises (call : Call) : Finding → Prop
  | tooHigh {built : Built} (hbuilt : call.session.built? call.name = some built)
    (hroom : call.room < built.height) :
    Raises call (.depthExceeded call.name (call.path.length + call.room))
  | circular (hunbuilt : call.session.built? call.name = none) (hpath : call.name ∈ call.path) :
    Raises call (.circularReference (cycleThrough call.name call.path))
  | tooDeep (hfresh : Fresh call.session call.path call.name) (hroom : call.room = 0) :
    Raises call (.depthExceeded call.name call.path.length)

variable {call raised : Call} {cause : Finding}

/-- A call that gives up its path by itself records the cause and makes no further call. -/
theorem Raises.outcome_eq (h : call.Raises cause) :
    call.outcome definitions = .giveUp call.session cause := by
  unfold outcome resolveBelow
  cases h with
  | tooHigh hbuilt hroom =>
    rw [hbuilt]
    exact if_neg (Nat.not_le_of_lt hroom)
  | circular hunbuilt hpath =>
    rw [hunbuilt]
    exact if_pos hpath
  | tooDeep hfresh hroom =>
    rw [hfresh.unbuilt, hroom]
    exact if_neg hfresh.offPath

/-- A path that is given up within the limit was too long, or had come to its name before. -/
theorem Raises.cases (h : call.Raises cause) (hwithin : call.Within definitions limit) :
    (call.name ∈ call.path ∧ cause = .circularReference (cycleThrough call.name call.path)) ∨
      call.name ∉ call.path ∧ cause = .depthExceeded call.name limit ∧
        definitions.Exceeds call.room call.name := by
  have hexceeds : definitions.Exceeds call.room call.name := by
    have hsettles := hwithin.told.settles
    rw [h.outcome_eq] at hsettles
    exact hsettles
  cases h with
  | tooHigh hbuilt =>
    -- A name that has a tree lies on no cycle, so it is not on its own path.
    have hkept := hwithin.sound _ _ hbuilt
    refine .inr ⟨fun hmem => ?_, by rw [hwithin.room_eq], hexceeds⟩
    exact hkept.unfolded.acyclic (hkept.name_eq.symm ▸ hwithin.entered.leads.reaches hmem)
  | circular _ hpath => exact .inl ⟨hpath, rfl⟩
  | tooDeep hfresh hroom =>
    have hlimit : call.path.length = limit := by
      have heq := hwithin.room_eq
      omega
    exact .inr ⟨hfresh.offPath, by rw [hlimit], hexceeds⟩

/-- From the top some call within is needed before a path is given up. -/
theorem not_raises_top (hpos : 0 < limit) (name : String) :
    ¬ (top limit {} name).Raises cause := by
  intro h
  cases h with
  | tooHigh hbuilt => exact absurd hbuilt (by simp [top])
  | circular _ hpath => exact absurd hpath List.not_mem_nil
  | tooDeep _ hroom => exact absurd hroom (Nat.ne_of_gt hpos)

/-! ## The way back -/

/-- Where names are resolved in turn and one is given up, the names in front of it have trees. -/
theorem exists_stopped {room : Nat} {path : List String} {session after : Session}
    {names : List String}
    (h : VisitEach (Answers definitions room path) session names (after, .error cause)) :
    ∃ passed target rest between children, names = passed ++ target :: rest ∧
      resolveEach (resolveBelow definitions room path) session passed = (between, .ok children) ∧
        resolveBelow definitions room path between target = (after, .error cause) := by
  generalize houtcome : ((after, .error cause) : Outcome (List Built)) = outcome at h
  induction h with
  | done | more => cases houtcome
  | stop hfirst =>
    cases houtcome
    exact ⟨[], _, _, _, [], rfl, rfl, hfirst.symm⟩
  | @stopLater session _ _ name _ built _ hfirst _ ih =>
    obtain ⟨passed, target, rest, between, children, rfl, hpassed, hstop⟩ := ih houtcome
    refine ⟨name :: passed, target, rest, between, built :: children, rfl, ?_, hstop⟩
    rw [resolveEach, ← show _ = resolveBelow definitions room path session name from hfirst]
    dsimp only
    rw [hpassed]

/-- One call back: a call that is given up raises the cause, or passes on that of a call that it
made, and reports its own condition. -/
theorem raises_or_nested {after : Session}
    (h : call.outcome definitions = (after, .error cause)) :
    (call.Raises cause ∧ after = call.session.report cause) ∨
      ∃ below between, Nested definitions call below ∧ below.room < call.room ∧
        below.outcome definitions = (between, .error cause) ∧
          after = if cause.concerns call.name then between
            else between.report (.degraded call.name cause) := by
  obtain ⟨room, path, session, name⟩ := call
  have hvisit := visit_answers definitions room path session name
  rw [show resolveBelow definitions room path session name = _ from h] at hvisit
  generalize houtcome : ((after, .error cause) : Outcome Built) = outcome at hvisit
  cases hvisit with
  | reused | undeclared | malformed | comparison | dangling | combined => cases houtcome
  | tooHigh hbuilt hroom =>
    cases houtcome
    exact .inl ⟨.tooHigh hbuilt hroom, rfl⟩
  | circular hunbuilt hpath =>
    cases houtcome
    exact .inl ⟨.circular hunbuilt hpath, rfl⟩
  | tooDeep hfresh =>
    cases houtcome
    exact .inl ⟨.tooDeep hfresh rfl, rfl⟩
  | @degraded room _ _ after' _ _ _ _ hfresh hcombines hbelow =>
    obtain ⟨hafter, hcause⟩ := Prod.mk.inj houtcome
    obtain rfl := Except.error.inj hcause
    obtain ⟨passed, target, rest, between, children, rfl, hpassed, hstop⟩ := exists_stopped hbelow
    exact .inr ⟨⟨room, name :: path, between, target⟩, after', .target hfresh hcombines hpassed,
      Nat.lt_succ_self room, hstop, hafter⟩

/-- All the way back: below every call that is given up some call raises the cause, and what is
recorded behind that is the cause and one finding for every open call from there on back. -/
theorem exists_raised (call : Call) {after : Session}
    (h : call.outcome definitions = (after, .error cause)) :
    ∃ raised inner, Reaches definitions call raised ∧ raised.Raises cause ∧
      raised.path = inner ++ call.path ∧
        raised.session.Adds after (cause :: cause.fallout inner) := by
  -- Every call has more room than those that it makes.
  induction hroom : call.room using Nat.strongRecOn generalizing call after with
  | _ room ih =>
    rcases raises_or_nested h with ⟨hraises, rfl⟩ | ⟨below, between, hnested, hless, hbelow, rfl⟩
    · exact ⟨call, [], .refl, hraises, rfl, call.session.adds_report cause⟩
    · obtain ⟨raised, inner, hreach, hraises, hpath, hadds⟩ :=
        ih below.room (hroom ▸ hless) below hbelow rfl
      refine ⟨raised, inner ++ [call.name], .head hnested hreach, hraises, ?_, ?_⟩
      · rw [hpath, hnested.path_eq, List.append_assoc, List.singleton_append]
      · rw [Finding.fallout_concat, ← List.cons_append]
        exact hadds.blame call.name cause

/-- The findings of the way back are new: before it, none was about a path. -/
theorem Raises.findings_eq {after : Session} (h : raised.Raises cause)
    (hdistinct : raised.path.Nodup)
    (hquiet : ∀ finding ∈ raised.session.findings, ¬ finding.AboutPath)
    (hadds : raised.session.Adds after (cause :: cause.fallout raised.path)) :
    after.findings = raised.session.findings ++ cause :: cause.fallout raised.path := by
  have hcause : cause.AboutPath ∧ cause ∉ cause.fallout raised.path := by
    -- The cause itself is no finding that something went down.
    cases h <;> exact ⟨trivial, by simp [Finding.fallout]⟩
  have hnew : ∀ finding ∈ cause :: cause.fallout raised.path,
      finding ∉ raised.session.findings := by
    intro finding hmem hold
    rcases List.mem_cons.1 hmem with rfl | hfallout
    · exact hquiet _ hold hcause.1
    · exact hquiet finding hold (Finding.aboutPath_of_mem_fallout hfallout)
  exact Eq.trans hadds (Session.findings_reportAll_of_new hnew
    (List.nodup_cons.2 ⟨hcause.2, cause.nodup_fallout hdistinct⟩))

/-- With a positive limit, the path on which a cause is raised starts at the name from the top. -/
theorem Reaches.exists_path_eq {name : String} (hpos : 0 < limit)
    (hreach : Reaches definitions (top limit {} name) raised) (hraises : raised.Raises cause) :
    ∃ inner, raised.path = inner ++ [name] := by
  rcases Relation.ReflTransGen.cases_head hreach with rfl | ⟨first, hnested, hbelow⟩
  · exact absurd hraises (not_raises_top hpos name)
  · obtain ⟨inner, hinner⟩ := Reaches.path_suffix hbelow
    refine ⟨inner, ?_⟩
    rw [← hinner, hnested.path_eq]
    rfl

end Call

/-! ## Names below -/

/-- Everything that can be reached from a name stands in its unfolded tree. -/
theorem Condition.Unfolded.exists_node {tree : Condition} {target : String}
    (h : tree.Unfolded definitions)
    (hreach : Relation.ReflTransGen definitions.LiveChild tree.name target) :
    ∃ node : Condition, node.IsNode tree ∧ node.name = target := by
  induction hreach with
  | refl => exact ⟨tree, .root tree, rfl⟩
  | tail _ hlive ih =>
    obtain ⟨node, hnode, rfl⟩ := ih
    obtain ⟨child, hchild, hname, _⟩ := (h.node hnode).exists_child hlive
    exact ⟨child, (isNode_of_mem_children hchild).trans hnode, hname⟩

/-! ## Main result -/

/-- The findings of a single resolution.  Either none of them is about a path, and everything that
can be reached from the name stands in its tree.  Or the condition is empty, and some call raised a
cause on a path of references from the name: then the faults that had come up before stand in
front, the cause comes next, and behind it the conditions of that path go down from the last one
back to the first, those left out that the cause concerns.  The cause is the cycle that closed on the
path, or the limit; in the latter case nothing is left out, and the path goes on until it has more
names than the limit. -/
theorem findings_of_single_resolution (definitions : Definitions) {limit : Nat}
    (hlimit : 1 ≤ limit) (name : String) :
    let resolved := Condition.resolve definitions limit name
    ((∀ finding ∈ resolved.2, ¬ finding.AboutPath) ∧
      ∀ target, Relation.ReflTransGen definitions.LiveChild name target →
        ∃ node : Condition, node.IsNode resolved.1.tree ∧ node.name = target) ∨
    (resolved.1.tree = .empty name ∧
      ∃ (raised : Call) (cause : Finding),
        Call.Reaches definitions (.top limit {} name) raised ∧ raised.Raises cause ∧
        resolved.2 = raised.session.findings ++ cause ::
          (raised.path.filter fun upper => !cause.concerns upper).map
            (fun upper => .degraded upper cause) ∧
        (∀ finding ∈ raised.session.findings, ¬ finding.AboutPath) ∧
        (∃ inner, raised.path = inner ++ [name]) ∧ raised.path.Nodup ∧
        definitions.LivePath (raised.path.reverse ++ [raised.name]) ∧
        ((raised.name ∈ raised.path ∧
            cause = .circularReference (cycleThrough raised.name raised.path)) ∨
          (cause = .depthExceeded raised.name limit ∧
            (∀ upper ∈ raised.path, cause.concerns upper = false) ∧
            ∃ below, definitions.LivePath (raised.path.reverse ++ raised.name :: below) ∧
              limit < (raised.path.reverse ++ raised.name :: below).length))) := by
  intro resolved
  have htop : (Call.top limit {} name).Within definitions limit :=
    Call.within_top Session.keeps_new (Session.complete_new definitions) name
  have hfindings : resolved.2 = (({} : Session).resolve definitions limit name).1.findings := rfl
  have htree : resolved.1 = (({} : Session).resolve definitions limit name).2 := rfl
  obtain ⟨after, built, hbelow, hresolve⟩ | ⟨after, cause, hbelow, hresolve⟩ :=
    Session.resolve_cases definitions limit {} name
  · -- A tree is returned: its faults are all that was recorded.
    have htold := htop.told
    rw [show (Call.top limit {} name).outcome definitions = _ from hbelow] at htold
    obtain ⟨hunfolds, _⟩ := htold.settles
    have hadds : Session.Adds {} after (built.tree.faults definitions) := htold.tells
    rw [hfindings, htree, hresolve]
    refine .inl ⟨fun finding hfinding => ?_, fun target hreach => ?_⟩
    · rcases hadds.mem_iff.1 hfinding with hold | hfault
      · exact absurd hold List.not_mem_nil
      · exact Condition.not_aboutPath_of_mem_faults hfault
    · exact hunfolds.unfolded.exists_node (hunfolds.name_eq.symm ▸ hreach)
  · -- The path is given up where the cause was raised, and all the way back.
    obtain ⟨raised, inner, hreach, hraises, hpath, hadds⟩ :=
      Call.exists_raised (.top limit {} name) hbelow
    obtain rfl : raised.path = inner := hpath.trans (List.append_nil inner)
    have hwithin : raised.Within definitions limit := Call.Reaches.within hreach htop
    have hquiet := Call.Reaches.not_aboutPath hreach htop fun _ h => absurd h List.not_mem_nil
    rw [hfindings, htree, hresolve]
    refine .inr ⟨rfl, raised, cause, hreach, hraises,
      hraises.findings_eq hwithin.entered.distinct hquiet hadds, hquiet,
      Call.Reaches.exists_path_eq hlimit hreach hraises, hwithin.entered.distinct,
      hwithin.entered.leads.live, ?_⟩
    rcases hraises.cases hwithin with hcycle | ⟨hoff, rfl, hexceeds⟩
    · exact .inl hcycle
    · refine .inr ⟨rfl, fun upper hupper => ?_,
        hwithin.entered.leads.exists_long hwithin.room_eq hexceeds⟩
      have hne : raised.name ≠ upper := fun heq => hoff (heq ▸ hupper)
      simp [Finding.concerns, Finding.condition, hne]

/-- Three conditions one below the other are too many for a limit of two: the deepest one is the
cause, and the other two go down with it. -/
theorem findings_of_nested :
    let cause := Finding.depthExceeded "C" 2
    let resolved := Condition.resolve nested 2 "A"
    1 ≤ 2 ∧ resolved.2 = [cause, .degraded "B" cause, .degraded "A" cause] ∧
    ∃ (raised : Call) (cause : Finding),
      Call.Reaches nested (.top 2 {} "A") raised ∧ raised.Raises cause ∧
      resolved.2 = raised.session.findings ++ cause ::
        (raised.path.filter fun upper => !cause.concerns upper).map
          (fun upper => .degraded upper cause) := by
  intro cause resolved
  have hsession : (({} : Session).resolve nested 2 "A").1 =
      ({} : Session).reportAll [cause, .degraded "B" cause, .degraded "A" cause] := rfl
  have hfindings : resolved.2 = [cause, .degraded "B" cause, .degraded "A" cause] := by
    show (({} : Session).resolve nested 2 "A").1.findings = _
    rw [hsession, Session.findings_reportAll_of_new (by simp) (by decide)]
    rfl
  refine ⟨by decide, hfindings, ?_⟩
  rcases findings_of_single_resolution nested (show 1 ≤ 2 by decide) "A" with
    ⟨hquiet, _⟩ | ⟨_, raised, cause, hreach, hraises, heq, _⟩
  · -- The first finding is about a path.
    have hmem : cause ∈ resolved.2 := by
      rw [hfindings]
      exact List.mem_cons_self
    exact absurd trivial (hquiet _ hmem)
  · exact ⟨raised, cause, hreach, hraises, heq⟩

end TemplateConditions
