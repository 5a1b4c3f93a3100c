import TemplateConditions.Proofs.Resolution.Bounds

/-!
# The shape of resolved trees

Whatever names are resolved in one session, the trees that come back fit together.  No name stands
above itself, no path is longer than the limit, and a name has the same subtree wherever it stands
in any of the trees.
-/

namespace TemplateConditions

variable {definitions : Definitions} {limit : Nat}

namespace Condition

/-! ## Branches -/

/-- The nodes on a path from the root of a tree down to one of its leaves. -/
inductive Branch : Condition → List Condition → Prop
  | leaf {tree : Condition} (hleaf : tree.children = []) : Branch tree [tree]
  | down {tree child : Condition} {nodes : List Condition} (hchild : child ∈ tree.children)
    (hbelow : Branch child nodes) : Branch tree (tree :: nodes)

theorem Branch.exists_eq_cons {tree : Condition} {nodes : List Condition}
    (h : tree.Branch nodes) : ∃ below, nodes = tree :: below := by
  cases h with
  | leaf => exact ⟨[], rfl⟩
  | down => exact ⟨_, rfl⟩

theorem branch_empty_iff {name : String} {nodes : List Condition} :
    (Condition.empty name).Branch nodes ↔ nodes = [.empty name] := by
  constructor
  · intro h
    cases h with
    | leaf => rfl
    | down hchild => exact absurd hchild List.not_mem_nil
  · rintro rfl
    exact .leaf rfl

/-- No branch has more nodes than the tree is high. -/
theorem Branch.length_le_height {tree : Condition} {nodes : List Condition}
    (h : tree.Branch nodes) : nodes.length ≤ tree.height := by
  induction h with
  | leaf => exact height_pos _
  | down hchild _ ih =>
    have hlt := height_lt_of_mem_children hchild
    rw [List.length_cons]
    omega

/-- One branch has as many nodes as the tree is high. -/
theorem exists_branch_of_height (tree : Condition) :
    ∃ nodes, tree.Branch nodes ∧ nodes.length = tree.height := by
  induction tree using induction_on_children with
  | step tree ih =>
    by_cases hleaf : tree.children = []
    · refine ⟨[tree], .leaf hleaf, ?_⟩
      rw [height_eq, hleaf]
      rfl
    · obtain ⟨child, hchild, hgreatest⟩ := exists_height_eq_greatestHeight hleaf
      obtain ⟨nodes, hbranch, hlength⟩ := ih child hchild
      refine ⟨tree :: nodes, .down hchild hbranch, ?_⟩
      rw [height_eq, ← hgreatest, List.length_cons, hlength, Nat.add_comm]

/-! ## Nodes of unfolded trees -/

/-- A conjunction or disjunction in an unfolded tree has at least two children. -/
theorem Unfolded.two_le_length {tree : Condition} {name : String} {children : List Condition}
    (h : tree.Unfolded definitions)
    (hnode : (Condition.and name children).IsNode tree ∨
      (Condition.or name children).IsNode tree) : 2 ≤ children.length := by
  rw [← List.length_map Condition.name]
  -- Both connectives ask for the same number of targets.
  rcases hnode with hand | hor
  · have hcombines : definitions.Combines name .and (children.map Condition.name) := h _ hand
    exact of_decide_eq_true hcombines.allowed
  · have hcombines : definitions.Combines name .or (children.map Condition.name) := h _ hor
    exact of_decide_eq_true hcombines.allowed

/-- The root of an unfolded tree refers to each of its children. -/
theorem Unfolded.liveChild {tree child : Condition} (h : tree.Unfolded definitions)
    (hchild : child ∈ tree.children) : definitions.LiveChild tree.name child.name := by
  obtain ⟨connective, hcombines⟩ := h.agrees.combines hchild
  exact ⟨connective, _, hcombines, List.mem_map_of_mem hchild⟩

/-- The names on a branch of an unfolded tree are a path of references. -/
theorem Branch.live {tree : Condition} {nodes : List Condition} (h : tree.Branch nodes)
    (hunfolded : tree.Unfolded definitions) : definitions.LivePath (nodes.map Condition.name) := by
  induction h with
  | leaf => exact List.isChain_singleton _
  | down hchild hbelow ih =>
    have hrest := ih (hunfolded.child hchild)
    obtain ⟨below, rfl⟩ := hbelow.exists_eq_cons
    exact List.isChain_cons_cons.2 ⟨hunfolded.liveChild hchild, hrest⟩

/-- No name stands twice on a branch of an unfolded tree, because that would be a cycle. -/
theorem Branch.nodup_names {tree : Condition} {nodes : List Condition} (h : tree.Branch nodes)
    (hunfolded : tree.Unfolded definitions) : (nodes.map Condition.name).Nodup := by
  have hlive := h.live hunfolded
  obtain ⟨below, rfl⟩ := h.exists_eq_cons
  exact hlive.distinct fun target hreach => hunfolded.acyclic_below hreach

/-! ## Well-shaped trees -/

/-- What can be relied on in every tree that resolution returns. -/
structure WellShaped (definitions : Definitions) (limit : Nat) (tree : Condition) : Prop where
  joins : ∀ name children, (Condition.and name children).IsNode tree ∨
    (Condition.or name children).IsNode tree → 2 ≤ children.length
  distinct : ∀ nodes, tree.Branch nodes → (nodes.map Condition.name).Nodup
  bounded : ∀ nodes, tree.Branch nodes → nodes.length ≤ limit
  declared : ∀ node : Condition, node.IsNode tree →
    ∀ child ∈ node.children, definitions.declares child.name = true

theorem Unfolded.wellShaped {tree : Condition} (h : tree.Unfolded definitions)
    (hheight : tree.height ≤ limit) : tree.WellShaped definitions limit where
  joins := fun _ _ hnode => h.two_le_length hnode
  distinct := fun _ hbranch => hbranch.nodup_names h
  bounded := fun _ hbranch => Nat.le_trans hbranch.length_le_height hheight
  declared := fun _ hnode _ hchild => by
    obtain ⟨_, _, hcombines, htarget⟩ := (h.node hnode).liveChild hchild
    exact hcombines.declared _ htarget

theorem wellShaped_empty (definitions : Definitions) (hlimit : 1 ≤ limit) (name : String) :
    (Condition.empty name).WellShaped definitions limit where
  joins := fun _ _ hnode => by
    -- The only node is the root, and that is neither of the two.
    rcases hnode with hand | hor
    · exact absurd (isNode_empty_iff.1 hand) (by simp)
    · exact absurd (isNode_empty_iff.1 hor) (by simp)
  distinct := fun _ hbranch => by
    rw [branch_empty_iff.1 hbranch]
    exact List.nodup_singleton name
  bounded := fun _ hbranch => by
    rw [branch_empty_iff.1 hbranch]
    exact hlimit
  declared := fun _ hnode _ hchild => by
    rw [isNode_empty_iff.1 hnode] at hchild
    exact absurd hchild List.not_mem_nil

theorem StandsFor.wellShaped {name : String} {tree : Condition}
    (h : tree.StandsFor definitions limit name) (hlimit : 1 ≤ limit) :
    tree.WellShaped definitions limit := by
  rcases h with ⟨_, hunfolded, hheight⟩ | ⟨rfl, _⟩
  · exact hunfolded.wellShaped hheight
  · exact wellShaped_empty definitions hlimit name

end Condition

/-! ## Main result -/

/-- The trees that a session returns carry the names that were asked for.  In each of them a
conjunction or disjunction has at least two children, the names on the way from the root to a leaf
are all different and no more than the limit, and whatever stands below a node is declared.  Nodes
with the same name are the same tree, wherever they stand in whichever of the trees; so what is
empty by itself is empty below every other condition, and the other way round. -/
theorem resolved_trees_fit_together (definitions : Definitions) {limit : Nat}
    (hlimit : 1 ≤ limit) (names : List String) :
    let conditions := (Session.resolveAll definitions limit {} names).2
    conditions.map (fun condition => condition.tree.name) = names ∧
    (∀ condition ∈ conditions, condition.tree.WellShaped definitions limit) ∧
    ∀ condition ∈ conditions, ∀ other ∈ conditions, ∀ a b : Condition,
      a.IsNode condition.tree → b.IsNode other.tree → a.name = b.name → a = b := by
  intro conditions
  have hconditions : conditions =
      names.map fun name => (Condition.resolve definitions limit name).1 :=
    (Session.resolveAll_eq limit names Session.keeps_new).2
  -- A node is what its own name resolves to, so its name decides what it is.
  have hnode : ∀ condition ∈ conditions, ∀ node : Condition, node.IsNode condition.tree →
      node = (Condition.resolve definitions limit node.name).1.tree := by
    intro condition hcondition node hnode
    rw [hconditions] at hcondition
    obtain ⟨name, _, rfl⟩ := List.mem_map.1 hcondition
    exact (resolve_node hnode).symm
  refine ⟨?_, ?_, ?_⟩
  · rw [hconditions, List.map_map]
    have hnames : ∀ name ∈ names,
        (Condition.resolve definitions limit name).1.tree.name = name :=
      fun name _ => (resolve_standsFor definitions limit name).name_eq
    exact (List.map_congr_left hnames).trans (List.map_id names)
  · intro condition hcondition
    rw [hconditions] at hcondition
    obtain ⟨name, _, rfl⟩ := List.mem_map.1 hcondition
    exact (resolve_standsFor definitions limit name).wellShaped hlimit
  · intro condition hcondition other hother a b ha hb hname
    rw [hnode condition hcondition a ha, hnode other hother b hb, hname]

/-- A comparison has the same tree by itself and below its negation. -/
theorem child_of_dev_eq_prod :
    1 ≤ 2 ∧ ∀ dev prod : Resolved,
      [dev, prod] = (Session.resolveAll prodAndDev 2 {} ["Dev", "Prod"]).2 →
        ∀ child ∈ dev.tree.children, child.name = "Prod" → child = prod.tree := by
  refine ⟨by decide, fun dev prod hrun child hchild hname => ?_⟩
  obtain ⟨hnames, _, hsame⟩ :=
    resolved_trees_fit_together prodAndDev (show 1 ≤ 2 by decide) ["Dev", "Prod"]
  rw [← hrun] at hnames hsame
  obtain ⟨_, hprod⟩ : dev.tree.name = "Dev" ∧ prod.tree.name = "Prod" := by simpa using hnames
  exact hsame dev (by simp) prod (by simp) child prod.tree (.under hchild (.root child))
    (.root prod.tree) (hname.trans hprod.symm)

end TemplateConditions
