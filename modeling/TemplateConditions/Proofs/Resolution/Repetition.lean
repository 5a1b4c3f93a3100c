import TemplateConditions.Proofs.Resolution.Unwinding

/-!
# Repeated resolutions

Resolving a name a second time finds everything as the first resolution left it.  A name that has
its tree by now is reused.  A name that was given up is visited again, along the same path to the
same end: what was finished on the way is reused, nothing on the path has been finished, and every
finding is recorded already.
-/

namespace TemplateConditions

variable {definitions : Definitions}

/-! ## What a visit leaves alone -/

/-- Trees that were kept stay, and the names on the path of a visit get none. -/
structure Session.Spares (path : List String) (session after : Session) : Prop where
  kept : ∀ {name : String} {built : Built}, session.built? name = some built →
    after.built? name = some built
  onPath : ∀ {name : String}, name ∈ path → after.built? name = session.built? name

namespace Session

variable {session between after : Session} {path : List String}

theorem spares_refl (path : List String) (session : Session) : session.Spares path session :=
  ⟨id, fun _ => rfl⟩

theorem spares_reportAll (path : List String) (session : Session) (findings : List Finding) :
    session.Spares path (session.reportAll findings) where
  kept hbuilt := by rwa [built?_reportAll]
  onPath _ := built?_reportAll session findings _

theorem spares_report (path : List String) (session : Session) (finding : Finding) :
    session.Spares path (session.report finding) :=
  spares_reportAll path session [finding]

theorem Spares.trans (h : session.Spares path between) (h' : between.Spares path after) :
    session.Spares path after where
  kept hbuilt := h'.kept (h.kept hbuilt)
  onPath hmem := (h'.onPath hmem).trans (h.onPath hmem)

/-- A name that has no tree and is not on the path may get one. -/
theorem Spares.keep {name : String} (h : session.Spares path after)
    (hunbuilt : after.built? name = none) (hoff : name ∉ path) (built : Built) :
    session.Spares path (after.keep name built) where
  kept := by
    intro other found hfound
    have hother := h.kept hfound
    rw [built?_keep, if_neg, hother]
    rintro rfl
    rw [hunbuilt] at hother
    exact absurd hother (by simp)
  onPath := by
    intro other hmem
    rw [built?_keep, if_neg, h.onPath hmem]
    rintro rfl
    exact hoff hmem

theorem Spares.of_cons {name : String} (h : session.Spares (name :: path) after) :
    session.Spares path after :=
  ⟨h.kept, fun hmem => h.onPath (List.mem_cons_of_mem name hmem)⟩

/-- The name of a combination still has no tree when its targets have been visited. -/
theorem Spares.unbuilt {name : String} (h : session.Spares (name :: path) after)
    (hfresh : Fresh session path name) : after.built? name = none := by
  rw [h.onPath List.mem_cons_self, hfresh.unbuilt]

end Session

theorem visitEach_spares {path : List String} {session : Session} {names : List String}
    {outcome : Outcome (List Built)}
    (h : VisitEach (fun session _ outcome => session.Spares path outcome.1) session names outcome) :
    session.Spares path outcome.1 := by
  induction h with
  | done session => exact session.spares_refl path
  | stop hfirst => exact hfirst
  | stopLater hfirst _ ih => exact hfirst.trans ih
  | more hfirst _ ih => exact hfirst.trans ih

theorem visit_spares {room : Nat} {path : List String} {session : Session} {name : String}
    {outcome : Outcome Built}
    (h : Visit definitions (fun _ path session _ outcome => session.Spares path outcome.1)
      room path session name outcome) : session.Spares path outcome.1 := by
  cases h with
  | reused => exact session.spares_refl path
  | tooHigh | circular | tooDeep | undeclared => exact session.spares_report path _
  | malformed hfresh =>
    exact (session.spares_report path _).keep hfresh.unbuilt hfresh.offPath _
  | comparison hfresh => exact (session.spares_refl path).keep hfresh.unbuilt hfresh.offPath _
  | dangling hfresh =>
    refine (session.spares_reportAll path _).keep ?_ hfresh.offPath _
    rw [Session.built?_reportAll, hfresh.unbuilt]
  | combined hfresh _ hbelow =>
    have hspares := visitEach_spares hbelow
    exact hspares.of_cons.keep (hspares.unbuilt hfresh) hfresh.offPath _
  | degraded _ _ hbelow =>
    have hspares := (visitEach_spares hbelow).of_cons
    split
    · exact hspares
    · exact hspares.trans (Session.spares_report path _ _)

theorem resolveBelow_spares (definitions : Definitions) (room : Nat) (path : List String)
    (session : Session) (name : String) :
    session.Spares path (resolveBelow definitions room path session name).1 :=
  resolveBelow_induction (fun h => visit_spares h) room path session name

/-! ## What a visit finishes -/

/-- A tree that is returned has room, and it is kept unless its name is not declared. -/
def Finishes (definitions : Definitions) (room : Nat) (name : String) : Outcome Built → Prop
  | (after, .ok built) => built.height ≤ room ∧
      (definitions.declares name = true → after.built? name = some built)
  | (_, .error _) => True

theorem visitEach_heights {room : Nat} {session : Session} {names : List String}
    {outcome : Outcome (List Built)}
    (h : VisitEach (fun _ name outcome => Finishes definitions room name outcome)
      session names outcome) {children : List Built} (hchildren : outcome.2 = .ok children) :
    ∀ child ∈ children, child.height ≤ room := by
  induction h generalizing children with
  | done =>
    rw [← Except.ok.inj hchildren]
    exact fun _ hchild => absurd hchild List.not_mem_nil
  | more hfirst _ ih =>
    rw [← Except.ok.inj hchildren]
    exact List.forall_mem_cons.2 ⟨hfirst.1, ih rfl⟩
  | stop | stopLater => exact absurd hchildren (by simp)

theorem finishes_finish {room : Nat} {name : String} {after : Session} {built : Built}
    (hroom : built.height ≤ room) : Finishes definitions room name (.finish after name built) := by
  refine ⟨hroom, fun _ => ?_⟩
  rw [Session.built?_keep, if_pos rfl]

theorem visit_finishes {room : Nat} {path : List String} {session : Session} {name : String}
    {outcome : Outcome Built}
    (h : Visit definitions (fun room _ _ name outcome => Finishes definitions room name outcome)
      room path session name outcome) : Finishes definitions room name outcome := by
  cases h with
  | reused hbuilt hroom => exact ⟨hroom, fun _ => hbuilt⟩
  | tooHigh | circular | tooDeep | degraded => trivial
  | undeclared _ hfound =>
    refine ⟨Nat.le_add_left 1 _, fun hdeclared => ?_⟩
    rw [Definitions.declares, hfound] at hdeclared
    exact absurd hdeclared Bool.false_ne_true
  | malformed | comparison | dangling => exact finishes_finish (Nat.le_add_left 1 _)
  | combined _ _ hbelow =>
    exact finishes_finish (height_combineBuilt_le (visitEach_heights hbelow rfl))

theorem resolveBelow_finishes (definitions : Definitions) (room : Nat) (path : List String)
    (session : Session) (name : String) :
    Finishes definitions room name (resolveBelow definitions room path session name) :=
  resolveBelow_induction (fun h => visit_finishes h) room path session name

/-! ## The second visit -/

namespace Session

theorem report_of_mem {session : Session} {finding : Finding} (h : finding ∈ session.findings) :
    session.report finding = session := by
  have hseen : finding ∈ session.recorded.seen := by
    rw [session.recorded.mem_seen, ← Array.mem_toList_iff]
    exact h
  rw [report, Findings.record, if_pos hseen]

/-- The later session keeps the same trees, and it has all findings of the earlier one. -/
structure Follows (later after : Session) : Prop where
  built_eq : later.built = after.built
  grows : after.findings ⊆ later.findings

variable {later session : Session}

theorem Follows.built?_eq (h : later.Follows session) (name : String) :
    later.built? name = session.built? name := by
  rw [built?, built?, h.built_eq]

theorem Follows.fresh {path : List String} {name : String} (h : later.Follows session)
    (hunbuilt : session.built? name = none) (hoff : name ∉ path) : Fresh later path name :=
  ⟨(h.built?_eq name).trans hunbuilt, hoff⟩

theorem Follows.of_report {finding : Finding} (h : later.Follows (session.report finding)) :
    later.Follows session ∧ finding ∈ later.findings :=
  ⟨⟨h.built_eq, fun _ hmem => h.grows (mem_findings_report.2 (.inl hmem))⟩,
    h.grows (mem_findings_report.2 (.inr rfl))⟩

end Session

/-- A visit of the same name comes to the same result and changes nothing, in every session that
follows the one that the first visit left. -/
def Repeats (definitions : Definitions) (room : Nat) (path : List String) (name : String)
    (outcome : Outcome Built) : Prop :=
  ∀ later : Session, later.Follows outcome.1 →
    resolveBelow definitions room path later name = (later, outcome.2)

theorem resolveBelow_of_built {room : Nat} {path : List String} {session : Session}
    {name : String} {built : Built} (hbuilt : session.built? name = some built)
    (hroom : built.height ≤ room) :
    resolveBelow definitions room path session name = (session, .ok built) := by
  unfold resolveBelow
  rw [hbuilt]
  exact if_pos hroom

theorem resolveBelow_of_combines {room : Nat} {path : List String} {session : Session}
    {name : String} {connective : Connective} {targets : List String}
    (hfresh : Fresh session path name) (hcombines : definitions.Combines name connective targets) :
    resolveBelow definitions (room + 1) path session name =
      match resolveEach (resolveBelow definitions room (name :: path)) session targets with
      | (session, .ok children) => .finish session name (combineBuilt name connective children)
      | (session, .error cause) =>
        (if cause.concerns name then session else session.report (.degraded name cause),
          .error cause) := by
  have hread := Definition.ofJson_eq_combination_iff.2 ⟨rfl, hcombines.allowed⟩
  have hmissing : (targets.filter fun target => !definitions.declares target) = [] :=
    Definitions.missing_eq_nil_iff.2 hcombines.declared
  rw [resolveBelow, hfresh.unbuilt]
  dsimp only
  rw [if_neg hfresh.offPath, hcombines.written]
  dsimp only
  rw [hread]
  dsimp only
  exact hmissing ▸ rfl

/-- Names that stand in front of one that is given up have their trees by now. -/
theorem visitEach_repeats {room : Nat} {path : List String} {session : Session}
    {names : List String} {outcome : Outcome (List Built)}
    (h : VisitEach (fun session name outcome => session.Spares path outcome.1 ∧
      Finishes definitions room name outcome ∧ Repeats definitions room path name outcome)
      session names outcome)
    (hdeclared : ∀ name ∈ names, definitions.declares name = true) {cause : Finding}
    (hcause : outcome.2 = .error cause) {later : Session} (hlater : later.Follows outcome.1) :
    resolveEach (resolveBelow definitions room path) later names = (later, .error cause) := by
  induction h with
  | done | more => exact absurd hcause (by simp)
  | stop hfirst =>
    have hagain := hfirst.2.2 later hlater
    rw [resolveEach, hagain, Except.error.inj hcause]
  | @stopLater session between after name rest built other hfirst hrest ih =>
    obtain ⟨hname, hothers⟩ := List.forall_mem_cons.1 hdeclared
    have hspares : between.Spares path after := visitEach_spares (hrest.imp fun _ _ _ _ h => h.1)
    -- The tree of the first name was kept when it was finished, and has been kept since.
    have hbuilt : later.built? name = some built :=
      (hlater.built?_eq name).trans (hspares.kept (hfirst.2.1.2 hname))
    rw [resolveEach, resolveBelow_of_built hbuilt hfirst.2.1.1]
    dsimp only
    rw [ih hothers hcause hlater]

/-- A path that is given up by itself is given up in the same way again. -/
theorem repeats_giveUp {call : Call} {cause : Finding} (h : call.Raises cause) :
    Repeats definitions call.room call.path call.name (.giveUp call.session cause) := by
  intro later hlater
  obtain ⟨hfollows, hrecorded⟩ := hlater.of_report
  have hagain : (Call.mk call.room call.path later call.name).Raises cause := by
    have hbuilt := hfollows.built?_eq call.name
    cases h with
    | tooHigh hkept hroom => exact .tooHigh (hbuilt.trans hkept) hroom
    | circular hunbuilt hpath => exact .circular (hbuilt.trans hunbuilt) hpath
    | tooDeep hfresh hroom => exact .tooDeep (hfollows.fresh hfresh.unbuilt hfresh.offPath) hroom
  have hstopped : resolveBelow definitions call.room call.path later call.name =
      .giveUp later cause := hagain.outcome_eq
  rw [hstopped, Outcome.giveUp, Session.report_of_mem hrecorded]
  rfl

theorem repeats_finish {room : Nat} {path : List String} {name : String} {after : Session}
    {built : Built} (hroom : built.height ≤ room) :
    Repeats definitions room path name (.finish after name built) := by
  intro later hlater
  apply resolveBelow_of_built _ hroom
  rw [hlater.built?_eq, Outcome.finish, Session.built?_keep, if_pos rfl]

/-- One step: if the visits of the targets can be repeated, the visit of the name can. -/
theorem visit_repeats {room : Nat} {path : List String} {session : Session} {name : String}
    {outcome : Outcome Built} (hfinishes : Finishes definitions room name outcome)
    (h : Visit definitions (fun room path session name outcome =>
      (session.Spares path outcome.1 ∧ Finishes definitions room name outcome) ∧
        Repeats definitions room path name outcome) room path session name outcome) :
    Repeats definitions room path name outcome := by
  cases h with
  | reused hbuilt hroom =>
    exact fun later hlater => resolveBelow_of_built ((hlater.built?_eq name).trans hbuilt) hroom
  | tooHigh hbuilt hroom =>
    exact @repeats_giveUp definitions ⟨room, path, session, name⟩ _ (.tooHigh hbuilt hroom)
  | circular hunbuilt hpath =>
    exact @repeats_giveUp definitions ⟨room, path, session, name⟩ _ (.circular hunbuilt hpath)
  | tooDeep hfresh =>
    exact @repeats_giveUp definitions ⟨0, path, session, name⟩ _ (.tooDeep hfresh rfl)
  | undeclared hfresh hfound =>
    intro later hlater
    obtain ⟨hfollows, hrecorded⟩ := hlater.of_report
    have hagain := hfollows.fresh hfresh.unbuilt hfresh.offPath
    rw [resolveBelow, hagain.unbuilt]
    dsimp only
    rw [if_neg hagain.offPath, hfound]
    dsimp only
    rw [Session.report_of_mem hrecorded]
  | malformed | comparison | dangling | combined => exact repeats_finish hfinishes.1
  | @degraded _ _ _ after _ _ _ cause hfresh hcombines hbelow =>
    intro later hlater
    have hspares : session.Spares (name :: path) after :=
      visitEach_spares (hbelow.imp fun _ _ _ _ h => h.1.1)
    -- What follows the report of the condition follows the visits of its targets as well.
    have hfollows : later.Follows after ∧
        (cause.concerns name = false → .degraded name cause ∈ later.findings) := by
      by_cases hconcerns : cause.concerns name = true
      · rw [if_pos hconcerns] at hlater
        exact ⟨hlater, fun h => absurd (hconcerns.symm.trans h) (by simp)⟩
      · rw [if_neg hconcerns] at hlater
        exact ⟨hlater.of_report.1, fun _ => hlater.of_report.2⟩
    have htargets := visitEach_repeats (hbelow.imp fun _ _ _ _ h => ⟨h.1.1, h.1.2, h.2⟩)
      hcombines.declared rfl hfollows.1
    have hagain := hfollows.1.fresh (hspares.unbuilt hfresh) hfresh.offPath
    rw [resolveBelow_of_combines hagain hcombines, htargets]
    dsimp only
    split
    · rfl
    · rename_i hconcerns
      rw [Session.report_of_mem (hfollows.2 (Bool.eq_false_iff.2 hconcerns))]

theorem resolveBelow_repeats (definitions : Definitions) (room : Nat) (path : List String)
    (session : Session) (name : String) :
    Repeats definitions room path name (resolveBelow definitions room path session name) := by
  have hknown : ∀ (room : Nat) (path : List String) (session : Session) (name : String),
      session.Spares path (resolveBelow definitions room path session name).1 ∧
        Finishes definitions room name (resolveBelow definitions room path session name) :=
    fun room path session name => ⟨resolveBelow_spares definitions room path session name,
      resolveBelow_finishes definitions room path session name⟩
  exact resolveBelow_induction_knowing
    (motive := fun room path _ name outcome => Repeats definitions room path name outcome)
    hknown (fun hknown h => visit_repeats hknown.2 h) room path session name

/-! ## Main result -/

/-- Resolving a name again, below the same path, has the same result and leaves the session exactly
as it is: the trees that it keeps and the findings.  This holds in every session, for a name that
has a tree, for one that is not declared and for one that is given up, which is given up for the
same cause; and so from the top, where the path is empty before and after. -/
theorem resolve_again (definitions : Definitions) (limit : Nat) (session : Session)
    (name : String) :
    (∀ (room : Nat) (path : List String),
      let outcome := resolveBelow definitions room path session name
      resolveBelow definitions room path outcome.1 name = outcome) ∧
    let resolved := session.resolve definitions limit name
    resolved.1.resolve definitions limit name = resolved := by
  have hagain : ∀ (room : Nat) (path : List String),
      resolveBelow definitions room path (resolveBelow definitions room path session name).1 name =
        resolveBelow definitions room path session name :=
    fun room path => resolveBelow_repeats definitions room path session name _
      ⟨rfl, List.Subset.refl _⟩
  refine ⟨hagain, ?_⟩
  intro resolved
  have htop := hagain limit []
  obtain ⟨after, built, hbelow, hresolve⟩ | ⟨after, cause, hbelow, hresolve⟩ :=
    Session.resolve_cases definitions limit session name
  · rw [hbelow] at htop
    rw [show resolved = (after, built.toResolved) from hresolve, Session.resolve, htop]
  · rw [hbelow] at htop
    rw [show resolved = (after, .empty name) from hresolve, Session.resolve, htop]

end TemplateConditions
