import Mathlib.Logic.Relation
import TemplateConditions.Proofs.Resolution.Walk

/-!
# Runs

Walks over any number of steps.  A run within a call keeps to the steps during which the calls above
it stay open, so it ends where that call returns.  What is reached at all is reached from a new
session by resolving names one after the other, and whatever call is open then was entered before.
-/

namespace TemplateConditions.Walk

variable {definitions : Definitions} {limit : Nat}

/-! ## Runs within a call -/

/-- A step that is taken while the calls above stay open: the combinations that wait there are still
set aside after it. -/
def Inside (definitions : Definitions) (limit : Nat) (pending : List Pending)
    (walk next : Walk) : Prop :=
  walk.next? definitions limit = some next ∧ pending <:+ next.pending

/-- Any number of such steps. -/
abbrev Run (definitions : Definitions) (limit : Nat) (pending : List Pending) :
    Walk → Walk → Prop :=
  Relation.ReflTransGen (Inside definitions limit pending)

/-- Everything that is passed when names are resolved one after the other, from a new session on.
The history lists the names that have been resolved before the current one.  What is asked for next
is free, and the stack is left as it is. -/
inductive Reached (definitions : Definitions) (limit : Nat) : List String → Walk → Prop
  | first (name : String) : Reached definitions limit [] ⟨{}, [], [], name, .entered⟩
  | step {history : List String} {walk next : Walk} (h : Reached definitions limit history walk)
    (hnext : walk.next? definitions limit = some next) : Reached definitions limit history next
  | again {history : List String} {walk : Walk} {result : Except Finding Resolved}
    (h : Reached definitions limit history walk) (hpending : walk.pending = [])
    (hstage : walk.stage = .returned result) (name : String) :
    Reached definitions limit (history ++ [walk.name]) { walk with name := name, stage := .entered }

variable {pending : List Pending} {walk next last later : Walk}

theorem Inside.mono {longer : List Pending} (h : Inside definitions limit longer walk next)
    (hsuffix : pending <:+ longer) : Inside definitions limit pending walk next :=
  ⟨h.1, hsuffix.trans h.2⟩

theorem Run.mono {longer : List Pending} (h : Run definitions limit longer walk later)
    (hsuffix : pending <:+ longer) : Run definitions limit pending walk later :=
  Relation.ReflTransGen.mono (fun _ _ hstep => Inside.mono hstep hsuffix) walk later h

theorem Run.suffix (h : Run definitions limit pending walk later)
    (hstart : pending <:+ walk.pending) : pending <:+ later.pending := by
  cases h with
  | refl => exact hstart
  | tail _ hstep => exact hstep.2

theorem Inside.rightUnique (definitions : Definitions) (limit : Nat) (pending : List Pending) :
    Relator.RightUnique (Inside definitions limit pending) := by
  intro walk next other h h'
  exact Option.some.inj (h.1.symm.trans h'.1)

/-- A run from which no step leads on has passed everything, and there is no other. -/
theorem Run.eq_of_last (h : Run definitions limit pending walk last)
    (hlast : ∀ next, ¬ Inside definitions limit pending last next)
    (h' : Run definitions limit pending walk later)
    (hlater : ∀ next, ¬ Inside definitions limit pending later next) : later = last := by
  rcases h.total_of_right_unique (Inside.rightUnique definitions limit pending) h' with hon | hon
  · rcases hon.cases_head with heq | ⟨next, hnext, _⟩
    · exact heq.symm
    · exact absurd hnext (hlast next)
  · rcases hon.cases_head with heq | ⟨next, hnext, _⟩
    · exact heq
    · exact absurd hnext (hlater next)

/-- A run that comes to an end is the only one, so there is none that goes on for ever. -/
theorem Run.acc (h : Run definitions limit pending walk last)
    (hlast : ∀ next, ¬ Inside definitions limit pending last next) :
    Acc (fun next walk => Inside definitions limit pending walk next) walk := by
  induction h using Relation.ReflTransGen.head_induction_on with
  | refl => exact .intro last fun next hnext => absurd hnext (hlast next)
  | head hstep _ ih =>
    refine .intro _ fun other hother => ?_
    rw [Inside.rightUnique definitions limit pending hother hstep]
    exact ih

/-- The calls that are open above stay open. -/
theorem Run.names_suffix (h : Run definitions limit walk.pending walk later) :
    walk.names <:+ later.names := by
  induction h with
  | refl => exact List.suffix_refl walk.names
  | @tail before after _ hstep ih =>
    cases moves_of_next? hstep.1 with
    | stays hname hpending _ =>
      have heq : after.names = before.names := by
        rw [names, hname, hpending]
        rfl
      rw [heq]
      exact ih
    | calls hname hpending _ =>
      have heq : after.names = after.name :: before.names := by
        rw [names, hpending, List.map_cons, hname]
        rfl
      rw [heq]
      exact ih.trans (List.suffix_cons after.name before.names)
    | returns hname hpending _ =>
      have heq : before.names = before.name :: after.names := by
        rw [names, hpending, List.map_cons, ← hname]
        rfl
      rw [heq] at ih
      rcases List.suffix_cons_iff.1 ih with hsame | hbelow
      · -- The call itself would have returned.
        have hlength := congrArg List.length hsame
        have hle := hstep.2.length_le
        simp only [names, List.length_cons, List.length_map] at hlength
        omega
      · exact hbelow

/-- A name that is entered within a call is entered further down. -/
theorem names_suffix_of_entered (walk : Walk)
    (h : Relation.TransGen (Inside definitions limit walk.pending) walk later)
    (hstage : later.stage = .entered) : walk.names <:+ later.pending.map Pending.name := by
  obtain ⟨before, hrun, hstep⟩ := Relation.TransGen.tail'_iff.1 h
  cases moves_of_next? hstep.1 with
  | stays _ _ hother => exact absurd hstage hother
  | returns _ _ hother => exact absurd hstage hother
  | calls hname hpending _ =>
    rw [hpending, List.map_cons, hname]
    exact Run.names_suffix hrun

/-- The walk is within a call of the name, which was entered when these combinations waited. -/
def Within (definitions : Definitions) (limit : Nat) (history : List String) (name : String)
    (pending : List Pending) (walk : Walk) : Prop :=
  ∃ entry, Reached definitions limit history entry ∧ entry.stage = .entered ∧ entry.name = name ∧
    entry.pending = pending ∧ Run definitions limit pending entry walk

theorem Within.step {history : List String} {name : String}
    (h : Within definitions limit history name pending walk)
    (hnext : walk.next? definitions limit = some next) (hsuffix : pending <:+ next.pending) :
    Within definitions limit history name pending next := by
  obtain ⟨entry, hreached, hstage, hname, hpending, hrun⟩ := h
  exact ⟨entry, hreached, hstage, hname, hpending, hrun.tail ⟨hnext, hsuffix⟩⟩

/-- Whatever is open was entered: the innermost call, and every call that waits for one below it. -/
theorem Reached.within {history : List String} (h : Reached definitions limit history walk) :
    Within definitions limit history walk.name walk.pending walk ∧
      ∀ pending rest, pending :: rest <:+ walk.pending →
        Within definitions limit history pending.name rest walk := by
  induction h with
  | first name =>
    refine ⟨⟨_, .first name, rfl, rfl, rfl, .refl⟩, fun pending rest hsuffix => ?_⟩
    exact absurd (List.suffix_nil.1 hsuffix) (by simp)
  | again h hpending hstage name =>
    refine ⟨⟨_, h.again hpending hstage name, rfl, rfl, rfl, .refl⟩,
      fun pending rest hsuffix => ?_⟩
    have hnil : pending :: rest = [] := by
      apply List.suffix_nil.1
      rw [← hpending]
      exact hsuffix
    exact absurd hnil (by simp)
  | @step history walk next h hnext ih =>
    obtain ⟨hhere, habove⟩ := ih
    cases moves_of_next? hnext with
    | stays hname hpending _ =>
      rw [hname, hpending]
      have hopen : walk.pending <:+ next.pending := hpending ▸ List.suffix_refl walk.pending
      refine ⟨hhere.step hnext hopen, fun pending rest hsuffix => ?_⟩
      exact (habove pending rest hsuffix).step hnext
        ((List.suffix_cons pending rest).trans (hsuffix.trans hopen))
    | @calls pending hname hpending hstage =>
      have hopen : walk.pending <:+ next.pending := by
        rw [hpending]
        exact List.suffix_cons pending walk.pending
      refine ⟨⟨next, h.step hnext, hstage, rfl, rfl, .refl⟩, fun other rest hsuffix => ?_⟩
      rw [hpending] at hsuffix
      rcases List.suffix_cons_iff.1 hsuffix with heq | habovesuffix
      · -- The call that was the innermost one now waits.
        obtain ⟨rfl, rfl⟩ := List.cons.inj heq
        rw [hname]
        exact hhere.step hnext hopen
      · exact (habove other rest habovesuffix).step hnext
          ((List.suffix_cons other rest).trans (habovesuffix.trans hopen))
    | @returns pending hname hpending _ =>
      have hself : pending :: next.pending <:+ walk.pending := hpending ▸ List.suffix_refl _
      rw [hname]
      refine ⟨(habove pending next.pending hself).step hnext (List.suffix_refl next.pending),
        fun other rest hsuffix => ?_⟩
      have habovesuffix : other :: rest <:+ walk.pending :=
        hsuffix.trans ((List.suffix_cons pending next.pending).trans hself)
      exact (habove other rest habovesuffix).step hnext
        ((List.suffix_cons other rest).trans hsuffix)

end TemplateConditions.Walk
