import TemplateConditions.Proofs.Condition.Faults
import TemplateConditions.Proofs.Resolution.Merging
import TemplateConditions.Proofs.Resolution.Unwinding

/-!
# Refused definitions

Everything that a definition itself can have wrong is found before any of its targets is visited.
So a name with such faults is emptied at once: the session records the faults and keeps the empty
tree of that name, and for every other name it stays as it was.  Since the faults of a declared name
are recorded together with its tree, they are new as long as it has none.
-/

namespace TemplateConditions

variable {definitions : Definitions} {limit : Nat}

/-! ## Faults of a name -/

namespace Definitions

/-- The faults of a name are findings about that name. -/
theorem condition_of_mem_faults {name : String} {finding : Finding}
    (h : finding ∈ definitions.faults name) : finding.condition = name := by
  unfold Definitions.faults at h
  split at h
  · rw [List.mem_singleton.1 h]
    rfl
  · split at h
    · rename_i fault _
      rw [List.mem_singleton.1 h]
      cases fault <;> rfl
    · exact absurd h List.not_mem_nil
    · obtain ⟨target, _, rfl⟩ := List.mem_map.1 h
      rfl

theorem faults_of_compares {name : String} {clause : Clause}
    (h : definitions.Compares name clause) : definitions.faults name = [] := by
  obtain ⟨definition, hfound, hread⟩ := h.read
  rw [faults, hfound]
  dsimp only
  rw [hread]

theorem faults_of_combines {name : String} {connective : Connective} {targets : List String}
    (h : definitions.Combines name connective targets) : definitions.faults name = [] := by
  rw [faults_of_combination h.written h.allowed, missing_eq_nil_iff.2 h.declared, List.map_nil]

end Definitions

/-! ## Names with faults -/

namespace Session

/-- Where a fault of a declared name is recorded, the name has its tree. -/
def KeepsFaulty (definitions : Definitions) (session : Session) : Prop :=
  ∀ finding ∈ session.findings, ¬ finding.AboutPath →
    definitions.declares finding.condition = true →
      ∃ built, session.built? finding.condition = some built

variable {session : Session}

theorem keepsFaulty_new (definitions : Definitions) : ({} : Session).KeepsFaulty definitions :=
  fun _ hfinding => absurd hfinding List.not_mem_nil

/-- A finding about a path, or about an undeclared name, makes no difference. -/
theorem KeepsFaulty.report (h : session.KeepsFaulty definitions) {finding : Finding}
    (hfinding : finding.AboutPath ∨ definitions.declares finding.condition = false) :
    (session.report finding).KeepsFaulty definitions := by
  intro other hother hfault hdeclared
  rcases mem_findings_report.1 hother with hold | rfl
  · exact h other hold hfault hdeclared
  · rcases hfinding with hpath | hundeclared
    · exact absurd hpath hfault
    · exact absurd (hdeclared.symm.trans hundeclared) (by simp)

/-- The findings that are recorded may all be about the name whose tree is kept. -/
theorem KeepsFaulty.keep (h : session.KeepsFaulty definitions) {found : List Finding}
    {name : String} (hfound : ∀ finding ∈ found, finding.condition = name) (built : Built) :
    ((session.reportAll found).keep name built).KeepsFaulty definitions := by
  intro finding hfinding hfault hdeclared
  rw [built?_keep, built?_reportAll]
  split
  · exact ⟨built, rfl⟩
  · rename_i hother
    rcases mem_findings_reportAll.1 hfinding with hold | hnew
    · exact h finding hold hfault hdeclared
    · exact absurd (hfound finding hnew) hother

end Session

theorem visitEach_keepsFaulty {session : Session} {names : List String}
    {outcome : Outcome (List Built)}
    (h : VisitEach (fun session _ outcome => session.KeepsFaulty definitions →
      outcome.1.KeepsFaulty definitions) session names outcome)
    (hkeeps : session.KeepsFaulty definitions) : outcome.1.KeepsFaulty definitions := by
  induction h with
  | done => exact hkeeps
  | stop hfirst => exact hfirst hkeeps
  | stopLater hfirst _ ih => exact ih (hfirst hkeeps)
  | more hfirst _ ih => exact ih (hfirst hkeeps)

/-- One step: whatever is recorded about the name of a visit itself comes with its tree. -/
theorem visit_keepsFaulty {room : Nat} {path : List String} {session : Session} {name : String}
    {outcome : Outcome Built}
    (h : Visit definitions (fun _ _ session _ outcome => session.KeepsFaulty definitions →
      outcome.1.KeepsFaulty definitions) room path session name outcome)
    (hkeeps : session.KeepsFaulty definitions) : outcome.1.KeepsFaulty definitions := by
  cases h with
  | reused => exact hkeeps
  | tooHigh | circular | tooDeep => exact hkeeps.report (.inl trivial)
  | undeclared _ hfound =>
    -- The one fault that is recorded without a tree, but the name is not declared.
    refine hkeeps.report (.inr ?_)
    rw [Finding.condition, Definitions.declares, hfound, Option.isSome_none]
  | @malformed _ _ _ _ _ fault _ hfound hread =>
    have hname : ∀ finding ∈ [Finding.ofFault name fault], finding.condition = name := by
      rw [← Definitions.faults_of_error hfound hread]
      exact fun _ => Definitions.condition_of_mem_faults
    exact hkeeps.keep hname _
  | comparison => exact hkeeps.keep (fun _ hfinding => absurd hfinding List.not_mem_nil) _
  | dangling _ hfound hallowed =>
    rw [← Definitions.faults_of_combination hfound hallowed]
    exact hkeeps.keep (fun _ => Definitions.condition_of_mem_faults) _
  | combined _ _ hbelow =>
    -- Nothing is recorded about the name itself, only about names below it.
    have hafter := visitEach_keepsFaulty hbelow hkeeps
    exact hafter.keep (fun _ hfinding => absurd hfinding List.not_mem_nil) _
  | degraded _ _ hbelow =>
    have hafter := visitEach_keepsFaulty hbelow hkeeps
    split
    · exact hafter
    · exact hafter.report (.inl trivial)

theorem resolveBelow_keepsFaulty (room : Nat) (path : List String) {session : Session}
    (name : String) (hkeeps : session.KeepsFaulty definitions) :
    (resolveBelow definitions room path session name).1.KeepsFaulty definitions :=
  resolveBelow_induction (fun h hkeeps => visit_keepsFaulty h hkeeps) room path session name hkeeps

namespace Session

theorem resolve_keepsFaulty (limit : Nat) {session : Session} (name : String)
    (hkeeps : session.KeepsFaulty definitions) :
    (session.resolve definitions limit name).1.KeepsFaulty definitions := by
  rw [resolve_fst]
  exact resolveBelow_keepsFaulty limit [] name hkeeps

theorem resolveAll_keepsFaulty (limit : Nat) {session : Session} (names : List String)
    (hkeeps : session.KeepsFaulty definitions) :
    (session.resolveAll definitions limit names).1.KeepsFaulty definitions := by
  induction names generalizing session with
  | nil => exact hkeeps
  | cons name rest ih => exact ih (resolve_keepsFaulty limit name hkeeps)

/-- The faults of a declared name that has no tree are not recorded yet. -/
theorem KeepsFaulty.faults_new {session : Session} (h : session.KeepsFaulty definitions)
    {name : String} (hdeclared : definitions.declares name = true)
    (hunbuilt : session.built? name = none) :
    ∀ finding ∈ definitions.faults name, finding ∉ session.findings := by
  intro finding hfault hrecorded
  have hname := Definitions.condition_of_mem_faults hfault
  obtain ⟨built, hbuilt⟩ := h finding hrecorded
    (Definitions.not_aboutPath_of_mem_faults hfault) (hname ▸ hdeclared)
  rw [hname, hunbuilt] at hbuilt
  exact absurd hbuilt (by simp)

end Session

/-! ## Emptied names -/

/-- Findings that are new are appended, each at its first place. -/
theorem Session.findings_reportAll_new_eraseDups {session : Session} {found : List Finding}
    (hnew : ∀ finding ∈ found, finding ∉ session.findings) :
    (session.reportAll found).findings = session.findings ++ found.eraseDups := by
  have hnodup : found.eraseDups.Nodup := by
    rw [← findings_reportAll_new]
    exact (steps_reportAll {} found).findings_nodup List.nodup_nil
  rw [← findings_reportAll_eraseDups]
  refine findings_reportAll_of_new (fun finding hfinding => ?_) hnodup
  exact hnew finding (List.mem_eraseDups.1 hfinding)

/-- A declared name with faults is emptied before anything below it is visited. -/
theorem resolveBelow_of_faults {room : Nat} {path : List String} {session : Session}
    {name : String} (hfresh : Fresh session path name)
    (hdeclared : definitions.declares name = true) (hfaults : definitions.faults name ≠ []) :
    resolveBelow definitions (room + 1) path session name =
      .finish (session.reportAll (definitions.faults name)) name ⟨.empty name, 1⟩ := by
  -- What the visits of targets do is of no interest here.
  have hvisit : Visit definitions (fun _ _ _ _ _ => True) (room + 1) path session name
      (resolveBelow definitions (room + 1) path session name) :=
    visit_resolveBelow _ _ _ _ fun _ _ _ _ _ => trivial
  generalize resolveBelow definitions (room + 1) path session name = outcome at hvisit
  cases hvisit with
  | reused hbuilt | tooHigh hbuilt => exact absurd (hfresh.unbuilt.symm.trans hbuilt) (by simp)
  | circular _ hpath => exact absurd hpath hfresh.offPath
  | undeclared _ hfound =>
    rw [Definitions.declares, hfound] at hdeclared
    exact absurd hdeclared (by simp)
  | malformed _ hfound hread =>
    rw [Definitions.faults_of_error hfound hread]
    rfl
  | comparison _ hcompares => exact absurd (Definitions.faults_of_compares hcompares) hfaults
  | dangling _ hfound hallowed => rw [Definitions.faults_of_combination hfound hallowed]
  | combined _ hcombines | degraded _ hcombines =>
    exact absurd (Definitions.faults_of_combines hcombines) hfaults

/-- Resolving a name with faults: its tree and the findings that are added. -/
theorem Session.resolve_of_faults {session : Session} (hkeeps : session.KeepsFaulty definitions)
    (hlimit : 1 ≤ limit) {name : String} (hunbuilt : session.built? name = none)
    (hdeclared : definitions.declares name = true) (hfaults : definitions.faults name ≠ []) :
    let outcome := session.resolve definitions limit name
    outcome.2 = .empty name ∧
    (∀ other, outcome.1.built? other =
      if other = name then some ⟨.empty name, 1⟩ else session.built? other) ∧
    outcome.1.findings = session.findings ++ (definitions.faults name).eraseDups := by
  intro outcome
  -- A positive limit leaves room for the name, and for that many less below it.
  obtain ⟨room, rfl⟩ := Nat.exists_eq_add_of_le' hlimit
  have hfresh : Fresh session [] name := ⟨hunbuilt, List.not_mem_nil⟩
  have houtcome : outcome =
      ((session.reportAll (definitions.faults name)).keep name ⟨.empty name, 1⟩,
        .empty name) := by
    show session.resolve definitions (room + 1) name = _
    rw [resolve, resolveBelow_of_faults hfresh hdeclared hfaults]
    rfl
  rw [houtcome]
  refine ⟨rfl, fun other => ?_, ?_⟩
  · rw [built?_keep, built?_reportAll]
  · exact findings_reportAll_new_eraseDups (hkeeps.faults_new hdeclared hunbuilt)

/-! ## Combinations -/

theorem danglingReference_injective (name : String) :
    Function.Injective (Finding.danglingReference name) :=
  fun _ _ heq => (Finding.danglingReference.inj heq).2

namespace Definitions

variable {name : String} {connective : Connective} {argument : Json}

/-- An argument that cannot be read has one fault, the first one. -/
theorem exists_faults_of_unreadable
    (hfound : Ordered.find? name definitions = some (.object [(connective.function, argument)]))
    (h : Definition.Unreadable connective argument) :
    ∃ fault, Definition.FirstFault connective argument fault ∧
      definitions.faults name =
        [.malformedCombinator name connective.function fault.message] := by
  obtain ⟨fault, hfault⟩ := h.exists_firstFault
  exact ⟨fault, hfault, faults_of_error hfound hfault.ofJson_eq⟩

/-- An argument that can be read has one fault for each target that is not declared. -/
theorem exists_faults_of_readable
    (hfound : Ordered.find? name definitions = some (.object [(connective.function, argument)]))
    (h : ¬ Definition.Unreadable connective argument) {items : List Json} {target : String}
    (hitems : argument = .array items) (hmem : Definition.targetToJson target ∈ items)
    (hundeclared : definitions.declares target = false) :
    ∃ targets : List String, argument = .array (targets.map Definition.targetToJson) ∧
      definitions.missing targets ≠ [] ∧
      definitions.faults name = (definitions.missing targets).map (.danglingReference name) := by
  obtain ⟨targets, rfl, hallowed⟩ := Definition.not_unreadable_iff.1 h
  rw [← Json.array.inj hitems] at hmem
  have htarget : target ∈ targets :=
    (List.mem_map_of_injective Definition.targetToJson_injective).1 hmem
  refine ⟨targets, rfl, fun hnone => ?_, faults_of_combination hfound hallowed⟩
  have hdeclared := missing_eq_nil_iff.1 hnone target htarget
  exact absurd (hdeclared.symm.trans hundeclared) (by simp)

end Definitions

/-- A combination that cannot be built is never built in part.  Let a declared name without a tree
combine conditions by an argument that cannot be read, or that names an undeclared condition.  After
any run, resolving it returns an empty condition, keeps that one with height one and no other tree,
and records findings about that name alone.  An argument that cannot be read has one finding, about
its first fault.  Otherwise there is one for each undeclared target, in the order in which they come
first.  What the other targets are declared to be plays no part. -/
theorem faulty_combination_empties_only_itself (definitions : Definitions) {limit : Nat}
    (hlimit : 1 ≤ limit) (names : List String) {name : String} {connective : Connective}
    {argument : Json}
    (hfound : Ordered.find? name definitions = some (.object [(connective.function, argument)]))
    (hunbuilt : (Session.resolveAll definitions limit {} names).1.built? name = none)
    (hfaulty : Definition.Unreadable connective argument ∨
      ∃ items target, argument = .array items ∧ Definition.targetToJson target ∈ items ∧
        definitions.declares target = false) :
    let session := (Session.resolveAll definitions limit {} names).1
    let outcome := session.resolve definitions limit name
    outcome.2 = .empty name ∧
    (∀ other, outcome.1.built? other =
      if other = name then some ⟨.empty name, 1⟩ else session.built? other) ∧
    (∃ found, outcome.1.findings = session.findings ++ found ∧
      ∀ finding ∈ found, finding.condition = name) ∧
    (Definition.Unreadable connective argument →
      ∃ fault, Definition.FirstFault connective argument fault ∧
        outcome.1.findings = session.findings ++
          [.malformedCombinator name connective.function fault.message]) ∧
    (¬ Definition.Unreadable connective argument →
      ∃ targets : List String, argument = .array (targets.map Definition.targetToJson) ∧
        (targets.filter fun target => !definitions.declares target) ≠ [] ∧
        outcome.1.findings = session.findings ++
          ((targets.filter fun target => !definitions.declares target).eraseDups.map
            (.danglingReference name))) := by
  intro session outcome
  have hdeclared : definitions.declares name = true := by
    rw [Definitions.declares, hfound, Option.isSome_some]
  have hkeeps : session.KeepsFaulty definitions :=
    Session.resolveAll_keepsFaulty limit names (Session.keepsFaulty_new definitions)
  -- The faults of the name, for an argument that cannot be read and for one that can.
  have hunreadable := Definitions.exists_faults_of_unreadable hfound
  have hreadable : ¬ Definition.Unreadable connective argument →
      ∃ targets : List String, argument = .array (targets.map Definition.targetToJson) ∧
        definitions.missing targets ≠ [] ∧
        definitions.faults name =
          (definitions.missing targets).map (.danglingReference name) := by
    intro h
    obtain ⟨items, target, hitems, hmem, hundeclared⟩ := hfaulty.resolve_left h
    exact Definitions.exists_faults_of_readable hfound h hitems hmem hundeclared
  have hfaults : definitions.faults name ≠ [] := by
    by_cases h : Definition.Unreadable connective argument
    · obtain ⟨fault, _, heq⟩ := hunreadable h
      rw [heq]
      exact List.cons_ne_nil _ _
    · obtain ⟨targets, _, hmissing, heq⟩ := hreadable h
      rw [heq]
      exact mt List.map_eq_nil_iff.1 hmissing
  obtain ⟨hresult, hbuilt, hfindings⟩ :=
    Session.resolve_of_faults hkeeps hlimit hunbuilt hdeclared hfaults
  refine ⟨hresult, hbuilt, ⟨_, hfindings, fun finding hfinding => ?_⟩, fun h => ?_, fun h => ?_⟩
  · exact Definitions.condition_of_mem_faults (List.mem_eraseDups.1 hfinding)
  · obtain ⟨fault, hfault, heq⟩ := hunreadable h
    refine ⟨fault, hfault, ?_⟩
    rw [hfindings, heq]
    rfl
  · obtain ⟨targets, hargument, hmissing, heq⟩ := hreadable h
    refine ⟨targets, hargument, hmissing, ?_⟩
    rw [hfindings, heq, eraseDups_map (danglingReference_injective name)]
    rfl

/-- A conjunction of a condition on a cycle and of two names that are not declared. -/
def loopAndUndeclared : Definitions :=
  [("All", Definition.combinationToJson .and ["Loop", "Gone", "Lost", "Gone"]),
    ("Loop", Definition.combinationToJson .not ["Loop"])]

/-- After a run that has met the cycle, the conjunction reports each undeclared name once, and the
condition on the cycle still has no tree. -/
theorem faulty_combination_loopAndUndeclared :
    let session := (Session.resolveAll loopAndUndeclared 1 {} ["Loop"]).1
    let outcome := session.resolve loopAndUndeclared 1 "All"
    session.findings = [.circularReference ["Loop", "Loop"]] ∧
    outcome.2 = .empty "All" ∧
    outcome.1.built? "Loop" = none ∧
    outcome.1.findings = [.circularReference ["Loop", "Loop"], .danglingReference "All" "Gone",
      .danglingReference "All" "Lost"] := by
  intro session outcome
  have hsession : session = ({} : Session).report (.circularReference ["Loop", "Loop"]) := rfl
  have hfindings : session.findings = [.circularReference ["Loop", "Loop"]] := by
    rw [hsession, Session.findings_report]
    rfl
  have hfound : Ordered.find? "All" loopAndUndeclared =
      some (Definition.combinationToJson .and ["Loop", "Gone", "Lost", "Gone"]) := rfl
  obtain ⟨hresult, hbuilt, -, -, hdangling⟩ :=
    faulty_combination_empties_only_itself loopAndUndeclared (Nat.le_refl 1) ["Loop"] hfound rfl
      (.inr ⟨_, "Gone", rfl, List.mem_map_of_mem (by simp), rfl⟩)
  have hreadable : ¬ Definition.Unreadable .and
      (.array (["Loop", "Gone", "Lost", "Gone"].map Definition.targetToJson)) :=
    Definition.not_unreadable_iff.2 ⟨_, rfl, rfl⟩
  obtain ⟨targets, htargets, -, hafter⟩ := hdangling hreadable
  refine ⟨hfindings, hresult, ?_, ?_⟩
  · rw [hbuilt]
    rfl
  · have heq := Definition.targetToJson_injective.list_map (Json.array.inj htargets)
    rw [hafter, ← heq, hfindings]
    rfl

end TemplateConditions
