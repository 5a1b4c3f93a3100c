import TemplateConditions.Proofs.Resolution.Reports
import TemplateConditions.Proofs.Resolution.Steps

/-!
# Merged findings

A session adds to its findings and never takes one back or doubles it.  If the limit is at least the
number of declared conditions, it ends with the findings that its names have when each is resolved
by itself, one list behind the other, where a finding that comes up again is left out.  So the trees
that a session keeps hide no finding, although what stands below them is not visited again.
-/

namespace TemplateConditions

variable {definitions : Definitions} {limit : Nat}

/-! ## First occurrences -/

section

variable {α β : Type} [DecidableEq α] [DecidableEq β]

theorem eraseDups_concat (list : List α) (value : α) :
    (list ++ [value]).eraseDups =
      if value ∈ list then list.eraseDups else list.eraseDups ++ [value] := by
  rw [List.eraseDups_append]
  split
  · rename_i hmem
    have hnone : [value].removeAll list = [] := by simp [List.removeAll, hmem]
    rw [hnone, List.eraseDups_nil, List.append_nil]
  · rename_i hnew
    have hone : [value].removeAll list = [value] := by simp [List.removeAll, hnew]
    rw [hone]
    rfl

theorem eraseDups_map {f : α → β} (h : Function.Injective f) (list : List α) :
    (list.map f).eraseDups = list.eraseDups.map f := by
  induction list using List.reverseRecOn with
  | nil => rfl
  | append_singleton list value ih =>
    rw [List.map_append, List.map_singleton, eraseDups_concat, eraseDups_concat, ih]
    simp only [List.mem_map_of_injective h]
    split
    · rfl
    · rw [List.map_append, List.map_singleton]

end

namespace Session

/-- A new session keeps every finding where it comes up first. -/
theorem findings_reportAll_new (found : List Finding) :
    (({} : Session).reportAll found).findings = found.eraseDups := by
  -- From the right: both sides drop the last finding exactly if it came up before.
  induction found using List.reverseRecOn with
  | nil => rfl
  | append_singleton found finding ih =>
    rw [reportAll_append, eraseDups_concat]
    refine (findings_report _ finding).trans ?_
    simp only [ih, List.mem_eraseDups]

/-- Findings that come up again make no difference to what a session records. -/
theorem findings_reportAll_eraseDups (session : Session) (found : List Finding) :
    (session.reportAll found.eraseDups).findings = (session.reportAll found).findings := by
  induction found using List.reverseRecOn with
  | nil => rfl
  | append_singleton found finding ih =>
    rw [eraseDups_concat, reportAll_append]
    split
    · -- The finding that is left out was recorded with the others.
      rename_i hmem
      have hrecorded := (session.adds_reportAll found).subset hmem
      rw [ih]
      exact (findings_reportAll_of_subset (List.cons_subset.2 ⟨hrecorded, List.nil_subset _⟩)).symm
    · rw [reportAll_append]
      exact findings_reportAll_congr ih [finding]

/-! ## Single resolutions -/

variable {session : Session}

theorem findings_resolve (definitions : Definitions) (limit : Nat) (name : String) :
    (Condition.resolve definitions limit name).2 =
      (({} : Session).resolve definitions limit name).1.findings := rfl

/-- By itself, a name has the findings that it reports, each at its first place. -/
theorem exists_reports (definitions : Definitions) (limit : Nat) (name : String) :
    ∃ found, Reports definitions limit name found ∧
      (Condition.resolve definitions limit name).2 = found.eraseDups := by
  have hsound : ({} : Session).Sound definitions := keeps_new
  obtain ⟨_, found, hreports, hadds⟩ :=
    resolve_tells limit name hsound (complete_new definitions)
  refine ⟨found, hreports, ?_⟩
  rw [findings_resolve, ← findings_reportAll_new]
  exact hadds

/-- With an ample limit, resolving a name adds what it reports by itself. -/
theorem resolve_adds (hample : Ample definitions limit) (name : String)
    (hsound : session.Sound definitions) (hcomplete : session.Complete definitions) :
    session.Adds (session.resolve definitions limit name).1
      (Condition.resolve definitions limit name).2 := by
  obtain ⟨_, found, hreports, hadds⟩ := resolve_tells limit name hsound hcomplete
  obtain ⟨found', hreports', hsingle⟩ := exists_reports definitions limit name
  obtain rfl := hreports.unique hreports' hample hample
  rw [hsingle]
  exact Eq.trans hadds (findings_reportAll_eraseDups session found).symm

/-- A limit of zero leaves no room for any name, whatever is declared. -/
theorem resolve_zero (definitions : Definitions) (name : String)
    (hnone : session.Keeps fun _ _ => False) :
    (session.resolve definitions 0 name).1 = session.report (.depthExceeded name 0) := by
  have hunbuilt : session.built? name = none :=
    Option.eq_none_iff_forall_ne_some.2 fun built hbuilt => hnone name built hbuilt
  rw [resolve, resolveBelow, hunbuilt]
  rfl

/-! ## Runs -/

/-- If every single resolution adds what its name reports by itself, the run does. -/
theorem resolveAll_adds (good : Session → Prop)
    (hstep : ∀ session name, good session → good (session.resolve definitions limit name).1 ∧
      session.Adds (session.resolve definitions limit name).1
        (Condition.resolve definitions limit name).2)
    (hgood : good session) (names : List String) :
    session.Adds (session.resolveAll definitions limit names).1
      (names.flatMap fun name => (Condition.resolve definitions limit name).2) := by
  induction names generalizing session with
  | nil => exact session.adds_nil
  | cons name rest ih =>
    obtain ⟨hafter, hadds⟩ := hstep session name hgood
    rw [List.flatMap_cons]
    exact hadds.trans (ih hafter)

/-- A run in a new session ends with the merged findings of its names. -/
theorem findings_resolveAll (henough : definitions.length ≤ limit) (names : List String) :
    (resolveAll definitions limit {} names).1.findings =
      (names.flatMap fun name => (Condition.resolve definitions limit name).2).eraseDups := by
  rw [← findings_reportAll_new]
  rcases Nat.eq_zero_or_pos limit with rfl | hpos
  · -- Nothing is declared and no tree is ever kept, so every name is reported as too deep.
    refine resolveAll_adds (Keeps fun _ _ => False) (fun session name hnone => ?_) keeps_new names
    have hsingle : (Condition.resolve definitions 0 name).2 = [.depthExceeded name 0] := by
      rw [findings_resolve, resolve_zero definitions name keeps_new, findings_report]
      rfl
    rw [hsingle, resolve_zero definitions name hnone]
    exact ⟨hnone.report _, session.adds_report _⟩
  · refine resolveAll_adds
      (fun session => session.Sound definitions ∧ session.Complete definitions)
      (fun session name hgood => ?_) ⟨keeps_new, complete_new definitions⟩ names
    obtain ⟨hsound, hcomplete⟩ := hgood
    exact ⟨⟨(resolve_standsFor limit name hsound).1, (resolve_tells limit name hsound hcomplete).1⟩,
      resolve_adds ⟨hpos, henough⟩ name hsound hcomplete⟩

end Session

/-! ## Main result -/

/-- The findings of a session are never doubled, and each resolution leaves the earlier ones in
front.  If the limit is at least the number of declared conditions, they are the findings of the
single resolutions in their order, each at its first place; and those of a template are the findings
of its conditions in key order, merged in the same way. -/
theorem findings_merge_single_resolutions (definitions : Definitions) (limit : Nat)
    (names : List String) :
    let session := (Session.resolveAll definitions limit {} names).1
    session.findings.Nodup ∧
    (∀ name, session.findings <+: (session.resolve definitions limit name).1.findings) ∧
    (definitions.length ≤ limit →
      session.findings =
        (names.flatMap fun name => (Condition.resolve definitions limit name).2).eraseDups ∧
      (ConditionSet.ofDefinitions definitions limit).findings =
        ((definitions.map Prod.fst).flatMap fun name =>
          (Condition.resolve definitions limit name).2).eraseDups) := by
  intro session
  refine ⟨?_, fun name => ?_, fun henough => ⟨?_, ?_⟩⟩
  · have hsteps := Session.resolveAll_steps definitions limit {} names
    exact hsteps.findings_nodup List.nodup_nil
  · have hsteps := Session.resolve_steps definitions limit session name
    exact hsteps.findings_prefix
  · exact Session.findings_resolveAll henough names
  · exact Session.findings_resolveAll henough (definitions.map Prod.fst)

/-- Both names report the cycle when they are resolved by themselves, and one session reports it
once. -/
theorem findings_green_and_blue :
    blueAndGreen.length ≤ 2 ∧
      (∀ name ∈ ["Green", "Blue"], (Condition.resolve blueAndGreen 2 name).2 =
        [.circularReference ["Blue", "Green", "Blue"]]) ∧
      (Session.resolveAll blueAndGreen 2 {} ["Green", "Blue"]).1.findings =
        [.circularReference ["Blue", "Green", "Blue"]] := by
  have hsingle : ∀ name ∈ ["Green", "Blue"], (Condition.resolve blueAndGreen 2 name).2 =
      [.circularReference ["Blue", "Green", "Blue"]] := by
    intro name hname
    have hsession : (({} : Session).resolve blueAndGreen 2 name).1 =
        ({} : Session).report (.circularReference ["Blue", "Green", "Blue"]) := by
      rcases List.mem_pair.1 hname with rfl | rfl <;> rfl
    rw [Session.findings_resolve, hsession, Session.findings_report]
    rfl
  have hmerged := ((findings_merge_single_resolutions blueAndGreen 2 ["Green", "Blue"]).2.2
    (by decide)).1
  refine ⟨by decide, hsingle, ?_⟩
  rw [hmerged, List.flatMap_cons, List.flatMap_singleton, hsingle "Green" (by simp),
    hsingle "Blue" (by simp)]
  rfl

end TemplateConditions
