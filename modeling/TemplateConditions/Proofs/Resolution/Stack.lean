import TemplateConditions.Proofs.Resolution.Arrival
import TemplateConditions.Proofs.Resolution.Bounds

/-!
# The stack of open names

What can be said of the stack when a name is entered, of the calls that are made from there, and of
the stack when the call comes back.
-/

namespace TemplateConditions

variable {definitions : Definitions} {limit : Nat}

/-! ## Names on the stack -/

/-- Different declared names, each of which the one behind it refers to, and no more of them than
the limit and the definitions allow. -/
structure OpenNames (definitions : Definitions) (limit : Nat) (stack : List String) : Prop where
  distinct : stack.Nodup
  declared : ∀ name ∈ stack, definitions.declares name = true
  linked : stack.IsChain fun lower upper => definitions.LiveChild upper lower
  length_le : stack.length ≤ min limit definitions.length

theorem Entered.openNames {stack : List String} {name : String}
    (h : Entered definitions stack name) (hlimit : stack.length ≤ limit) :
    OpenNames definitions limit stack := by
  have hdeclared : ∀ upper ∈ stack, definitions.declares upper = true :=
    fun upper hupper => (h.declares hupper).1
  have hle := length_le_of_declares h.distinct hdeclared
  have hleads : (name :: stack).IsChain fun lower upper => definitions.LiveChild upper lower :=
    h.leads
  exact ⟨h.distinct, hdeclared, hleads.tail, Nat.le_min.2 ⟨hlimit, hle⟩⟩

/-- Above a stack that is not empty, the name is a declared target of the top. -/
theorem Entered.top {top : String} {below : List String} {name : String}
    (h : Entered definitions (top :: below) name) :
    definitions.LiveChild top name ∧ definitions.declares name = true :=
  ⟨(List.isChain_cons_cons.1 h.leads).1, (h.declares List.mem_cons_self).2⟩

namespace Walk

variable {history : List String} {walk inner : Walk}

/-- With nothing on the stack, the name is the one that is asked for from the top. -/
theorem Reached.session_of_top (h : Reached definitions limit history walk)
    (hstage : walk.stage = .entered) (hpending : walk.pending = []) :
    walk.session = (Session.resolveAll definitions limit {} history).1 := by
  obtain ⟨name, _, hrun⟩ := h.exists_top
  rcases Relation.reflTransGen_iff_eq_or_transGen.1 hrun with heq | hlater
  · rw [heq]
  · -- A name that is entered later on stands below another one.
    have hnames := names_suffix_of_entered ⟨_, [], [], name, .entered⟩ hlater hstage
    rw [hpending] at hnames
    exact absurd (List.suffix_nil.1 hnames) (List.cons_ne_nil name [])

/-- Calls from within a call have its name on the stack, above what it was entered with. -/
theorem Orderly.stack_suffix (horderly : walk.Orderly definitions limit)
    (hstage : walk.stage = .entered)
    (h : Relation.TransGen (Inside definitions limit walk.pending) walk inner)
    (hinner : inner.stage = .entered) : walk.name :: walk.stack <:+ inner.stack := by
  have hlater : inner.Orderly definitions limit := Run.orderly h.to_reflTransGen horderly
  rw [horderly.stack_eq_names hstage rfl, hlater.stack_eq_names hinner rfl]
  exact names_suffix_of_entered walk h hinner

end Walk

/-! ## Main result -/

/-- When a name is entered, the stack holds different declared names, each a target of the one
behind it, and no more of them than the limit or the definitions.  The name is asked for from the
top, or it is a declared target of the innermost open name.  Every call that is made before it comes
back has a longer stack.  It does come back, to the stack and to the open calls that it was entered
with, and with the outcome of resolving it below that stack, be that a tree or a finding. -/
theorem call_comes_back_to_its_stack {history : List String} {walk : Walk}
    (hreached : Walk.Reached definitions limit history walk) (hstage : walk.stage = .entered) :
    let outcome := resolveBelow definitions (limit - walk.stack.length) walk.stack walk.session
      walk.name
    OpenNames definitions limit walk.stack ∧
    (walk.stack = [] ∧ walk.pending = [] ∧
        walk.session = (Session.resolveAll definitions limit {} history).1 ∨
      ∃ top below, walk.stack = top :: below ∧ definitions.LiveChild top walk.name ∧
        definitions.declares walk.name = true) ∧
    (∀ inner : Walk, Relation.TransGen (Walk.Inside definitions limit walk.pending) walk inner →
      inner.stage = .entered →
        walk.stack.length < inner.stack.length ∧ walk.name :: walk.stack <:+ inner.stack) ∧
    Acc (fun next before => Walk.Inside definitions limit walk.pending before next) walk ∧
    ∀ last : Walk,
      (Walk.Run definitions limit walk.pending walk last ∧
        ∀ next, ¬ Walk.Inside definitions limit walk.pending last next) ↔
      last = { walk with
        session := outcome.1
        stage := .returned (outcome.2.map Built.toResolved) } := by
  intro outcome
  have horderly := hreached.orderly
  have hentered := horderly.entered hstage rfl
  have hstack := horderly.stack_eq_names hstage rfl
  have hrun := horderly.run_arrival hstage
  have hlast := Walk.arrival_last definitions limit walk
  refine ⟨hentered.openNames horderly.tidy.length_le, ?_, fun inner hinner hnested => ?_,
    hrun.acc hlast, fun last => ⟨fun hend => ?_, fun heq => ?_⟩⟩
  · cases hnames : walk.stack with
    | nil =>
      have hpending : walk.pending = [] := by
        apply List.map_eq_nil_iff.1
        rw [← hstack, hnames]
      exact .inl ⟨rfl, hpending, hreached.session_of_top hstage hpending⟩
    | cons top below =>
      rw [hnames] at hentered
      exact .inr ⟨top, below, rfl, hentered.top⟩
  · have hsuffix := horderly.stack_suffix hstage hinner hnested
    exact ⟨hsuffix.length_le, hsuffix⟩
  · exact hrun.eq_of_last hlast hend.1 hend.2
  · rw [heq]
    exact ⟨hrun, hlast⟩

/-- The target of a negation comes back to the name of the negation. -/
theorem prod_comes_back_to_dev :
    let walk : Walk := ⟨{}, ["Dev"], [⟨"Dev", .not, [], []⟩], "Prod", .entered⟩
    Walk.Reached prodAndDev 2 [] walk ∧ walk.stage = .entered ∧
      ∀ last, Walk.Run prodAndDev 2 walk.pending walk last →
        (∀ next, ¬ Walk.Inside prodAndDev 2 walk.pending last next) → last.stack = ["Dev"] := by
  intro walk
  have hreached : Walk.Reached prodAndDev 2 [] walk :=
    (((Walk.Reached.first "Dev").step rfl).step rfl).step rfl
  refine ⟨hreached, rfl, fun last hrun hlast => ?_⟩
  obtain ⟨_, _, _, _, hend⟩ := call_comes_back_to_its_stack hreached rfl
  rw [(hend last).1 ⟨hrun, hlast⟩]

end TemplateConditions
