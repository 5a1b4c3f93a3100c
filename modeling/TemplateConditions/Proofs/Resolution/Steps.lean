import Mathlib.Data.List.Nodup
import Mathlib.Logic.Relation
import TemplateConditions.Proofs.Resolution.Visit

/-!
# Sessions in steps

Whatever resolution does to a session, it does by recording findings and by keeping trees.  So what
one record and one kept tree preserve, every run preserves; in particular no finding is recorded
twice, and none is lost.
-/

namespace TemplateConditions

namespace Session

/-- A finding is recorded, or a tree is kept. -/
inductive Step : Session → Session → Prop
  | report (session : Session) (finding : Finding) : Step session (session.report finding)
  | keep (session : Session) (name : String) (built : Built) :
    Step session (session.keep name built)

/-- Any number of steps. -/
abbrev Steps : Session → Session → Prop := Relation.ReflTransGen Step

variable {session after : Session}

theorem steps_report (session : Session) (finding : Finding) :
    Steps session (session.report finding) :=
  .single (.report session finding)

theorem steps_reportAll (session : Session) (findings : List Finding) :
    Steps session (session.reportAll findings) := by
  induction findings generalizing session with
  | nil => exact .refl
  | cons finding rest ih => exact .head (.report session finding) (ih (session.report finding))

theorem Steps.keep (h : Steps session after) (name : String) (built : Built) :
    Steps session (after.keep name built) :=
  .tail h (.keep after name built)

end Session

open Session

/-! ## Resolution -/

theorem visitEach_steps {session : Session} {names : List String} {outcome : Outcome (List Built)}
    (h : VisitEach (fun session _ outcome => Steps session outcome.1) session names outcome) :
    Steps session outcome.1 := by
  induction h with
  | done => exact .refl
  | stop hfirst => exact hfirst
  | stopLater hfirst _ ih => exact hfirst.trans ih
  | more hfirst _ ih => exact hfirst.trans ih

/-- One visit: its targets take steps, and then the name itself does. -/
theorem visit_steps {definitions : Definitions} {room : Nat} {path : List String}
    {session : Session} {name : String} {outcome : Outcome Built}
    (h : Visit definitions (fun _ _ session _ outcome => Steps session outcome.1)
      room path session name outcome) : Steps session outcome.1 := by
  cases h with
  | reused => exact .refl
  | tooHigh | circular | tooDeep | undeclared => exact steps_report session _
  | malformed => exact (steps_report session _).keep name _
  | comparison => exact Steps.keep .refl name _
  | dangling => exact (steps_reportAll session _).keep name _
  | combined _ _ hbelow => exact (visitEach_steps hbelow).keep name _
  | degraded _ _ hbelow =>
    split
    · exact visitEach_steps hbelow
    · exact (visitEach_steps hbelow).trans (steps_report _ _)

theorem resolveBelow_steps (definitions : Definitions) (room : Nat) (path : List String)
    (session : Session) (name : String) :
    Steps session (resolveBelow definitions room path session name).1 :=
  resolveBelow_induction (fun h => visit_steps h) room path session name

namespace Session

theorem resolve_steps (definitions : Definitions) (limit : Nat) (session : Session)
    (name : String) : Steps session (session.resolve definitions limit name).1 := by
  rw [resolve_fst]
  exact resolveBelow_steps definitions limit [] session name

theorem resolveAll_steps (definitions : Definitions) (limit : Nat) (session : Session)
    (names : List String) : Steps session (session.resolveAll definitions limit names).1 := by
  induction names generalizing session with
  | nil => exact .refl
  | cons name rest ih =>
    exact (resolve_steps definitions limit session name).trans
      (ih (session.resolve definitions limit name).1)

/-! ## Findings -/

/-- What holds of the findings of a session holds after any number of steps if a record keeps it. -/
theorem Steps.findings_induction {property : List Finding → Prop} (h : Steps session after)
    (hrecord : ∀ findings finding, property findings → finding ∉ findings →
      property (findings ++ [finding]))
    (hstart : property session.findings) : property after.findings := by
  induction h with
  | refl => exact hstart
  | tail _ hstep ih =>
    cases hstep with
    | report finding =>
      rw [findings_report]
      split
      · exact ih
      · rename_i hnew
        exact hrecord _ finding ih hnew
    | keep => exact ih

/-- The findings of earlier steps stay, in front of the later ones. -/
theorem Steps.findings_prefix (h : Steps session after) :
    session.findings <+: after.findings := by
  apply h.findings_induction _ (List.prefix_refl _)
  intro findings finding hprefix _
  exact hprefix.trans (List.prefix_append findings [finding])

/-- No finding is recorded twice. -/
theorem Steps.findings_nodup (h : Steps session after) (hnodup : session.findings.Nodup) :
    after.findings.Nodup := by
  apply h.findings_induction _ hnodup
  intro findings finding hfindings hnew
  rw [List.nodup_append]
  refine ⟨hfindings, List.nodup_singleton finding, ?_⟩
  rintro other hother _ hfinding rfl
  rw [List.mem_singleton.1 hfinding] at hother
  exact hnew hother

end Session

end TemplateConditions
