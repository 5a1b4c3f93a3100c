import TemplateConditions.Proofs.Resolution.Orderly
import TemplateConditions.Proofs.Resolution.Shape

/-!
# Kept trees

What is known of the trees and heights that a session keeps, at every moment of a resolution and in
between.  Heights are put together from kept heights, so this comes from what is kept below a tree.
-/

namespace TemplateConditions

variable {definitions : Definitions} {limit : Nat}

/-! ## Accurate entries -/

/-- The tree is kept for a declared name that is not open, and with it all trees that stand in it.
Its height is the number of nodes on its longest branch, and is within the limit. -/
structure Accurate (definitions : Definitions) (limit : Nat) (session : Session)
    (stack : List String) (name : String) (built : Built) : Prop where
  declared : definitions.declares name = true
  closed : name ∉ stack
  named : built.tree.name = name
  nodes : ∀ node : Condition, node.IsNode built.tree →
    ∃ below, session.built? node.name = some below ∧ below.tree = node
  longest : ∃ nodes, built.tree.Branch nodes ∧ nodes.length = built.height
  bounded : ∀ nodes, built.tree.Branch nodes → nodes.length ≤ built.height
  height_le : built.height ≤ limit

/-- With a tree, all trees that stand in it are kept. -/
theorem exists_kept_of_isNode {session : Session}
    (hexact : session.Keeps (Exact definitions limit session)) {name : String} {built : Built}
    (hkept : session.built? name = some built) {node : Condition} (h : node.IsNode built.tree) :
    ∃ below, session.built? node.name = some below ∧ below.tree = node := by
  generalize htree : built.tree = tree at h
  induction h generalizing name built with
  | root =>
    have hname := (hexact name built hkept).unfolds.name_eq
    rw [htree] at hname
    rw [hname]
    exact ⟨built, hkept, htree⟩
  | under hchild _ ih =>
    rw [← htree] at hchild
    obtain ⟨below, hbelow, hsame⟩ := (hexact name built hkept).children _ hchild
    exact ih hbelow hsame

theorem Tidy.accurate {session : Session} {stack : List String} {name : String}
    {pending : List Pending} (h : Tidy definitions limit session stack name pending)
    {other : String} {built : Built} (hkept : session.built? other = some built) :
    Accurate definitions limit session stack other built := by
  have hexact := h.exact other built hkept
  have hheight := hexact.unfolds.height_eq
  refine ⟨hexact.declared, fun hopen => ?_, hexact.unfolds.name_eq,
    fun node hnode => exists_kept_of_isNode h.exact hkept hnode, ?_, fun nodes hbranch => ?_,
    hexact.height_le⟩
  · rw [h.unbuilt other hopen] at hkept
    exact absurd hkept (by simp)
  · rw [hheight]
    exact built.tree.exists_branch_of_height
  · rw [hheight]
    exact hbranch.length_le_height

/-! ## Heights above a stack -/

namespace Walk

variable {history : List String} {walk next : Walk}

/-- A tree that a step adds was asked for above the stack that is left, and has room there. -/
theorem Reached.exists_entry (h : Reached definitions limit history walk) {name : String}
    {built : Built} (hnext : walk.next? definitions limit = some next)
    (hkept : next.session.built? name = some built)
    (hnew : walk.session.built? name ≠ some built) :
    ∃ entry, Reached definitions limit history entry ∧ entry.stage = .entered ∧
      entry.name = name ∧ Run definitions limit entry.pending entry walk ∧
      entry.stack = walk.stack ∧ entry.stack.length + built.height ≤ limit := by
  obtain ⟨rfl, hstage⟩ := released_of_next? hnext hkept hnew
  have horderly := h.orderly
  obtain ⟨entry, hentry, hentered, hname, hpending, hrun⟩ := h.within.1
  have hstack : entry.stack = walk.stack := by
    rw [hentry.orderly.stack_eq_names hentered rfl,
      horderly.stack_eq_names hstage rfl, hpending]
  have hfits := horderly.fits_of_stage hstage
  rw [← hpending] at hrun
  refine ⟨entry, hentry, hentered, hname, hrun, hstack, ?_⟩
  rw [hstack]
  exact hfits.2.1

/-- The names on a stack and those on a branch of a tree that is used above it are all different, so
there are no more of them than definitions. -/
theorem Orderly.length_add_height_le (h : walk.Orderly definitions limit)
    (hstage : walk.stage = .entered) {built : Built}
    (hkept : walk.session.built? walk.name = some built) :
    walk.stack.length + built.height ≤ definitions.length := by
  have hentered := h.entered hstage rfl
  have hexact := h.tidy.exact walk.name built hkept
  have hname := hexact.unfolds.name_eq
  rw [hexact.unfolds.height_eq]
  apply Entered.length_add_height_le
  · rw [hname]
    exact hentered
  · exact hexact.unfolds.unfolded
  · rw [hname]
    exact hexact.declared

end Walk

/-! ## Main result -/

/-- Every tree that is kept, at any moment, is accurate.  When a tree is kept, the stack that its
name was entered with leaves room for its height.  Where a kept tree is asked for, its height and the
length of the stack together are at most the number of definitions, so their sum does not run over
in a machine word, whatever limit it is compared with. -/
theorem kept_trees_are_accurate {history : List String} {walk : Walk}
    (hreached : Walk.Reached definitions limit history walk) :
    (∀ name built, walk.session.built? name = some built →
      Accurate definitions limit walk.session walk.stack name built) ∧
    (∀ next name built, walk.next? definitions limit = some next →
      next.session.built? name = some built → walk.session.built? name ≠ some built →
        ∃ entry, Walk.Reached definitions limit history entry ∧ entry.stage = .entered ∧
          entry.name = name ∧ Walk.Run definitions limit entry.pending entry walk ∧
          entry.stack = walk.stack ∧ entry.stack.length + built.height ≤ limit) ∧
    ∀ built, walk.stage = .entered → walk.session.built? walk.name = some built →
      walk.stack.length + built.height ≤ definitions.length ∧
      (definitions.length < 2 ^ 64 →
        (UInt64.ofNat walk.stack.length + UInt64.ofNat built.height).toNat =
          walk.stack.length + built.height) := by
  have horderly := hreached.orderly
  refine ⟨fun name built hkept => horderly.tidy.accurate hkept,
    fun next name built hnext hkept hnew => hreached.exists_entry hnext hkept hnew,
    fun built hstage hkept => ?_⟩
  have hle := horderly.length_add_height_le hstage hkept
  refine ⟨hle, fun hword => ?_⟩
  rw [UInt64.toNat_add, UInt64.toNat_ofNat', UInt64.toNat_ofNat', ← Nat.add_mod]
  exact Nat.mod_eq_of_lt (by omega)

/-- A negation that is asked for after its target finds it kept, with one level above it. -/
theorem prod_is_kept_below_dev :
    let prod : Built := ⟨.equals "Prod" ⟨Token.ofName "Env", .literal "prod"⟩, 1⟩
    let walk : Walk := ⟨({} : Session).keep "Prod" prod, ["Dev"], [⟨"Dev", .not, [], []⟩], "Prod",
      .entered⟩
    Walk.Reached prodAndDev 2 ["Prod"] walk ∧ walk.stage = .entered ∧
      walk.session.built? "Prod" = some prod ∧
      walk.stack.length + prod.height ≤ prodAndDev.length ∧
      Accurate prodAndDev 2 walk.session ["Dev"] "Prod" prod := by
  intro prod walk
  have hprod : Walk.Reached prodAndDev 2 []
      ⟨({} : Session).keep "Prod" prod, [], [], "Prod", .returned (.ok prod.toResolved)⟩ :=
    ((((Walk.Reached.first "Prod").step rfl).step rfl).step rfl).step rfl
  have hdev : Walk.Reached prodAndDev 2 ["Prod"]
      ⟨({} : Session).keep "Prod" prod, [], [], "Dev", .entered⟩ := hprod.again rfl rfl "Dev"
  have hunbuilt : (({} : Session).keep "Prod" prod).built? "Dev" = none := by
    rw [Session.built?_keep]
    rfl
  have hkept : (({} : Session).keep "Prod" prod).built? "Prod" = some prod := by
    rw [Session.built?_keep, if_pos rfl]
  have hopened : Walk.Reached prodAndDev 2 ["Prod"]
      ⟨({} : Session).keep "Prod" prod, ["Dev"], [], "Dev",
        .opened (Definition.combinationToJson .not ["Prod"])⟩ := by
    apply hdev.step
    simp only [Walk.next?, Walk.enter, hunbuilt]
    rfl
  have hreached : Walk.Reached prodAndDev 2 ["Prod"] walk := (hopened.step rfl).step rfl
  obtain ⟨haccurate, _, hroom⟩ := kept_trees_are_accurate hreached
  exact ⟨hreached, rfl, hkept, (hroom prod rfl hkept).1, haccurate "Prod" prod hkept⟩

end TemplateConditions
