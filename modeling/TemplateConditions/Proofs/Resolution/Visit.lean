import TemplateConditions.Proofs.Condition.Declared
import TemplateConditions.Proofs.Ordered.Lookup

/-!
# Visits

Everything that resolution can do with one name, as a relation: `Visit` has one case for each way in
which the visit of a name can end, and speaks of the visits of its targets through a parameter.  A
property of all visits then follows from a property of one (`resolveBelow_induction`), and no other
proof has to open the recursion.
-/

namespace TemplateConditions

/-! ## Sessions -/

namespace Session

@[simp] theorem built?_new (name : String) : ({} : Session).built? name = none := rfl

@[simp] theorem findings_new : ({} : Session).findings = [] := rfl

@[simp] theorem built?_reportAll (session : Session) (findings : List Finding) (name : String) :
    (session.reportAll findings).built? name = session.built? name := by
  induction findings generalizing session with
  | nil => rfl
  | cons finding rest ih => exact ih (session.report finding)

theorem built?_keep (session : Session) (name other : String) (built : Built) :
    (session.keep name built).built? other =
      if other = name then some built else session.built? other :=
  Ordered.find?_insert name other built session.built

theorem findings_report (session : Session) (finding : Finding) :
    (session.report finding).findings =
      if finding ∈ session.findings then session.findings
      else session.findings ++ [finding] :=
  Findings.toList_record session.recorded finding

theorem mem_findings_report {session : Session} {finding other : Finding} :
    other ∈ (session.report finding).findings ↔ other ∈ session.findings ∨ other = finding := by
  rw [findings_report]
  split
  · rename_i h
    constructor
    · exact .inl
    · rintro (hother | rfl)
      · exact hother
      · exact h
  · rw [List.mem_append, List.mem_singleton]

theorem mem_findings_reportAll {session : Session} {findings : List Finding} {other : Finding} :
    other ∈ (session.reportAll findings).findings ↔
      other ∈ session.findings ∨ other ∈ findings := by
  induction findings generalizing session with
  | nil => simp [reportAll]
  | cons finding rest ih =>
    rw [show session.reportAll (finding :: rest) = (session.report finding).reportAll rest from rfl,
      ih, mem_findings_report, List.mem_cons, or_assoc]

/-- Every tree that the session keeps has the property, under its name. -/
def Keeps (property : String → Built → Prop) (session : Session) : Prop :=
  ∀ name built, session.built? name = some built → property name built

variable {property other : String → Built → Prop} {session : Session}

theorem keeps_new : ({} : Session).Keeps property := by
  intro name built hbuilt
  rw [built?_new] at hbuilt
  exact absurd hbuilt (by simp)

theorem Keeps.report (h : session.Keeps property) (finding : Finding) :
    (session.report finding).Keeps property := h

theorem Keeps.reportAll (h : session.Keeps property) (findings : List Finding) :
    (session.reportAll findings).Keeps property := by
  intro name built hbuilt
  rw [built?_reportAll] at hbuilt
  exact h name built hbuilt

theorem Keeps.keep {name : String} {built : Built} (h : session.Keeps property)
    (hbuilt : property name built) : (session.keep name built).Keeps property := by
  intro other found hfound
  rw [built?_keep] at hfound
  split at hfound
  · rename_i hname
    rw [hname, ← Option.some.inj hfound]
    exact hbuilt
  · exact h other found hfound

theorem Keeps.imp (h : session.Keeps property)
    (himp : ∀ name built, property name built → other name built) : session.Keeps other :=
  fun name built hbuilt => himp name built (h name built hbuilt)

end Session

/-! ## One visit -/

/-- The outcome of visits to several names, one after the other, up to the first that is given up.
`visit` says what the visit of one name does. -/
inductive VisitEach (visit : Session → String → Outcome Built → Prop) :
    Session → List String → Outcome (List Built) → Prop
  | done (session : Session) : VisitEach visit session [] (session, .ok [])
  | stop {session after : Session} {name : String} {rest : List String} {cause : Finding}
      (hfirst : visit session name (after, .error cause)) :
      VisitEach visit session (name :: rest) (after, .error cause)
  | stopLater {session between after : Session} {name : String} {rest : List String}
      {built : Built} {cause : Finding} (hfirst : visit session name (between, .ok built))
      (hrest : VisitEach visit between rest (after, .error cause)) :
      VisitEach visit session (name :: rest) (after, .error cause)
  | more {session between after : Session} {name : String} {rest : List String}
      {built : Built} {others : List Built} (hfirst : visit session name (between, .ok built))
      (hrest : VisitEach visit between rest (after, .ok others)) :
      VisitEach visit session (name :: rest) (after, .ok (built :: others))

theorem VisitEach.length_eq {visit : Session → String → Outcome Built → Prop}
    {session : Session} {names : List String} {outcome : Outcome (List Built)}
    {children : List Built} (h : VisitEach visit session names outcome)
    (hchildren : outcome.2 = .ok children) : children.length = names.length := by
  induction h generalizing children with
  | done =>
    rw [← Except.ok.inj hchildren]
    rfl
  | more _ _ ih =>
    rw [← Except.ok.inj hchildren, List.length_cons, List.length_cons, ih rfl]
  | stop | stopLater => exact absurd hchildren (by simp)

/-- The name has no tree yet and does not stand on the path. -/
structure Fresh (session : Session) (path : List String) (name : String) : Prop where
  unbuilt : session.built? name = none
  offPath : name ∉ path

/-- The outcome of the visit of a name below a path, with room for so many conditions.  `below` says
what the visits of its targets do. -/
inductive Visit (definitions : Definitions)
    (below : Nat → List String → Session → String → Outcome Built → Prop) :
    Nat → List String → Session → String → Outcome Built → Prop
  | reused {room : Nat} {path : List String} {session : Session} {name : String} {built : Built}
      (hbuilt : session.built? name = some built) (hroom : built.height ≤ room) :
      Visit definitions below room path session name (session, .ok built)
  | tooHigh {room : Nat} {path : List String} {session : Session} {name : String} {built : Built}
      (hbuilt : session.built? name = some built) (hroom : room < built.height) :
      Visit definitions below room path session name
        (.giveUp session (.depthExceeded name (path.length + room)))
  | circular {room : Nat} {path : List String} {session : Session} {name : String}
      (hunbuilt : session.built? name = none) (hpath : name ∈ path) :
      Visit definitions below room path session name
        (.giveUp session (.circularReference (cycleThrough name path)))
  | tooDeep {path : List String} {session : Session} {name : String}
      (hfresh : Fresh session path name) :
      Visit definitions below 0 path session name
        (.giveUp session (.depthExceeded name path.length))
  | undeclared {room : Nat} {path : List String} {session : Session} {name : String}
      (hfresh : Fresh session path name) (hfound : Ordered.find? name definitions = none) :
      Visit definitions below (room + 1) path session name
        (session.report (.unknownCondition name), .ok ⟨.empty name, 1⟩)
  | malformed {room : Nat} {path : List String} {session : Session} {name : String}
      {definition : Json} {fault : Definition.Fault} (hfresh : Fresh session path name)
      (hfound : Ordered.find? name definitions = some definition)
      (hread : Definition.ofJson definition = .error fault) :
      Visit definitions below (room + 1) path session name
        (.finish (session.report (.ofFault name fault)) name ⟨.empty name, 1⟩)
  | comparison {room : Nat} {path : List String} {session : Session} {name : String}
      {clause : Clause} (hfresh : Fresh session path name)
      (hcompares : definitions.Compares name clause) :
      Visit definitions below (room + 1) path session name
        (.finish session name ⟨.equals name clause, 1⟩)
  | dangling {room : Nat} {path : List String} {session : Session} {name : String}
      {connective : Connective} {targets : List String} (hfresh : Fresh session path name)
      (hfound : Ordered.find? name definitions =
        some (Definition.combinationToJson connective targets))
      (hallowed : connective.allows targets.length = true)
      (hmissing : definitions.missing targets ≠ []) :
      Visit definitions below (room + 1) path session name
        (.finish (session.reportAll ((definitions.missing targets).map (.danglingReference name)))
          name ⟨.empty name, 1⟩)
  | combined {room : Nat} {path : List String} {session after : Session} {name : String}
      {connective : Connective} {targets : List String} {children : List Built}
      (hfresh : Fresh session path name)
      (hcombines : definitions.Combines name connective targets)
      (hbelow : VisitEach (below room (name :: path)) session targets (after, .ok children)) :
      Visit definitions below (room + 1) path session name
        (.finish after name (combineBuilt name connective children))
  | degraded {room : Nat} {path : List String} {session after : Session} {name : String}
      {connective : Connective} {targets : List String} {cause : Finding}
      (hfresh : Fresh session path name)
      (hcombines : definitions.Combines name connective targets)
      (hbelow : VisitEach (below room (name :: path)) session targets (after, .error cause)) :
      Visit definitions below (room + 1) path session name
        (if cause.concerns name then after else after.report (.degraded name cause),
          .error cause)

/-! ## Induction -/

theorem VisitEach.imp {visit visit' : Session → String → Outcome Built → Prop}
    {session : Session} {names : List String} {outcome : Outcome (List Built)}
    (h : VisitEach visit session names outcome)
    (himp : ∀ session, ∀ name ∈ names, ∀ outcome,
      visit session name outcome → visit' session name outcome) :
    VisitEach visit' session names outcome := by
  induction h with
  | done session => exact .done session
  | stop hfirst => exact .stop (himp _ _ List.mem_cons_self _ hfirst)
  | stopLater hfirst _ ih =>
    exact .stopLater (himp _ _ List.mem_cons_self _ hfirst)
      (ih fun session name hname => himp session name (List.mem_cons_of_mem _ hname))
  | more hfirst _ ih =>
    exact .more (himp _ _ List.mem_cons_self _ hfirst)
      (ih fun session name hname => himp session name (List.mem_cons_of_mem _ hname))

theorem visitEach_resolveEach {visit : Session → String → Outcome Built → Prop}
    {step : Session → String → Outcome Built}
    (hstep : ∀ session name, visit session name (step session name))
    (session : Session) (names : List String) :
    VisitEach visit session names (resolveEach step session names) := by
  induction names generalizing session with
  | nil => exact .done session
  | cons name rest ih =>
    have hfirst := hstep session name
    unfold resolveEach
    split
    · rename_i heq
      rw [heq] at hfirst
      exact .stop hfirst
    · rename_i between built heq
      rw [heq] at hfirst
      have hrest := ih between
      split
      · rename_i heq
        rw [heq] at hrest
        exact .stopLater hfirst hrest
      · rename_i heq
        rw [heq] at hrest
        exact .more hfirst hrest

/-- Resolving a name is a visit of it, whose targets are visited by resolving them. -/
theorem visit_resolveBelow {definitions : Definitions}
    {below : Nat → List String → Session → String → Outcome Built → Prop}
    (room : Nat) (path : List String) (session : Session) (name : String)
    (hbelow : ∀ less, less < room → ∀ path session name,
      below less path session name (resolveBelow definitions less path session name)) :
    Visit definitions below room path session name
      (resolveBelow definitions room path session name) := by
  unfold resolveBelow
  split
  · rename_i built hbuilt
    split
    · rename_i hroom
      exact .reused hbuilt hroom
    · rename_i hroom
      exact .tooHigh hbuilt (Nat.lt_of_not_le hroom)
  · rename_i hunbuilt
    split
    · rename_i hpath
      exact .circular hunbuilt hpath
    · rename_i hpath
      have hfresh : Fresh session path name := ⟨hunbuilt, hpath⟩
      cases room with
      | zero => exact .tooDeep hfresh
      | succ room =>
        simp only
        split
        · rename_i hfound
          exact .undeclared hfresh hfound
        · rename_i definition hfound
          split
          · rename_i fault hread
            exact .malformed hfresh hfound hread
          · rename_i clause hread
            exact .comparison hfresh (Definitions.compares_of_read hfound hread)
          · rename_i connective targets hread
            obtain ⟨rfl, hallowed⟩ := Definition.ofJson_eq_combination_iff.1 hread
            have hvisits := visitEach_resolveEach
              (hbelow room (Nat.lt_succ_self room) (name :: path)) session targets
            split
            · rename_i hmissing
              have hcombines : definitions.Combines name connective targets :=
                ⟨hfound, hallowed, Definitions.missing_eq_nil_iff.1 hmissing⟩
              split
              · rename_i heq
                rw [heq] at hvisits
                exact .combined hfresh hcombines hvisits
              · rename_i heq
                rw [heq] at hvisits
                exact .degraded hfresh hcombines hvisits
            · rename_i hmissing
              exact .dangling hfresh hfound hallowed hmissing

/-- What holds of a visit as soon as it holds of the visits of its targets holds of resolution. -/
theorem resolveBelow_induction {definitions : Definitions}
    {motive : Nat → List String → Session → String → Outcome Built → Prop}
    (step : ∀ {room path session name outcome},
      Visit definitions motive room path session name outcome →
        motive room path session name outcome)
    (room : Nat) (path : List String) (session : Session) (name : String) :
    motive room path session name (resolveBelow definitions room path session name) := by
  -- Every step down leaves less room; the path and the session may be anything.
  induction room using Nat.strong_induction_on generalizing path session name with
  | _ room ih => exact step (visit_resolveBelow room path session name ih)

/-- The same, where something is known of every resolution already: a visit may use it of itself and
of the visits of its targets. -/
theorem resolveBelow_induction_knowing {definitions : Definitions}
    {known motive : Nat → List String → Session → String → Outcome Built → Prop}
    (hknown : ∀ room path session name,
      known room path session name (resolveBelow definitions room path session name))
    (step : ∀ {room path session name outcome}, known room path session name outcome →
      Visit definitions (fun room path session name outcome =>
        known room path session name outcome ∧ motive room path session name outcome)
        room path session name outcome →
      motive room path session name outcome)
    (room : Nat) (path : List String) (session : Session) (name : String) :
    motive room path session name (resolveBelow definitions room path session name) := by
  induction room using Nat.strong_induction_on generalizing path session name with
  | _ room ih =>
    apply step (hknown room path session name)
    apply visit_resolveBelow room path session name
    intro less hless path session name
    exact ⟨hknown less path session name, ih less hless path session name⟩

/-- Resolution from the top returns the tree of its visit, or an empty condition. -/
theorem Session.resolve_cases (definitions : Definitions) (limit : Nat) (session : Session)
    (name : String) :
    (∃ after built, resolveBelow definitions limit [] session name = (after, .ok built) ∧
      session.resolve definitions limit name = (after, built.toResolved)) ∨
    ∃ after cause, resolveBelow definitions limit [] session name = (after, .error cause) ∧
      session.resolve definitions limit name = (after, .empty name) := by
  unfold resolve
  split
  · rename_i after built hbelow
    exact .inl ⟨after, built, hbelow, rfl⟩
  · rename_i after cause hbelow
    exact .inr ⟨after, cause, hbelow, rfl⟩

/-- The session is the one that the visit leaves, whether a tree is returned or not. -/
theorem Session.resolve_fst (definitions : Definitions) (limit : Nat) (session : Session)
    (name : String) :
    (session.resolve definitions limit name).1 =
      (resolveBelow definitions limit [] session name).1 := by
  obtain ⟨after, built, hbelow, hresolve⟩ | ⟨after, cause, hbelow, hresolve⟩ :=
    resolve_cases definitions limit session name
  · rw [hbelow, hresolve]
  · rw [hbelow, hresolve]

end TemplateConditions
