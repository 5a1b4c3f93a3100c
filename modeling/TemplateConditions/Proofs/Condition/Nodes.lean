import TemplateConditions.Condition.Tree

/-!
# Nodes and heights of condition trees

A tree holds its root and the nodes of its children.  The height of a tree is the number of nodes on
its longest path from the root downwards.
-/

namespace TemplateConditions.Condition

/-! ## Children -/

theorem sizeOf_lt_of_mem_children {child tree : Condition} (h : child ∈ tree.children) :
    sizeOf child < sizeOf tree := by
  cases tree with
  | equals | empty => exact absurd h List.not_mem_nil
  | and name children =>
    have hlt := List.sizeOf_lt_of_mem (show child ∈ children from h)
    rw [Condition.and.sizeOf_spec]
    omega
  | or name children =>
    have hlt := List.sizeOf_lt_of_mem (show child ∈ children from h)
    rw [Condition.or.sizeOf_spec]
    omega
  | not name only =>
    have heq : child = only := List.mem_singleton.1 h
    rw [heq, Condition.not.sizeOf_spec]
    omega

/-- What holds of a tree as soon as it holds of its children holds of every tree. -/
@[elab_as_elim]
theorem induction_on_children {motive : Condition → Prop}
    (step : ∀ tree : Condition, (∀ child ∈ tree.children, motive child) → motive tree)
    (tree : Condition) : motive tree :=
  step tree fun child _ => induction_on_children step child
termination_by sizeOf tree
decreasing_by exact sizeOf_lt_of_mem_children ‹_›

/-! ## Nodes -/

/-- The first condition stands at some position of the second. -/
inductive IsNode : Condition → Condition → Prop
  | root (tree : Condition) : IsNode tree tree
  | under {node child tree : Condition} :
    child ∈ tree.children → IsNode node child → IsNode node tree

theorem isNode_of_mem_children {child tree : Condition} (h : child ∈ tree.children) :
    child.IsNode tree :=
  .under h (.root child)

theorem IsNode.trans {lower node tree : Condition} (hlower : lower.IsNode node)
    (hnode : node.IsNode tree) : lower.IsNode tree := by
  induction hnode with
  | root => exact hlower
  | under hchild _ ih => exact .under hchild ih

theorem isNode_iff {node tree : Condition} :
    node.IsNode tree ↔ node = tree ∨ ∃ child ∈ tree.children, node.IsNode child := by
  constructor
  · intro h
    cases h with
    | root => exact .inl rfl
    | under hchild hnode => exact .inr ⟨_, hchild, hnode⟩
  · rintro (rfl | ⟨child, hchild, hnode⟩)
    · exact .root node
    · exact .under hchild hnode

theorem isNode_empty_iff {node : Condition} {name : String} :
    node.IsNode (.empty name) ↔ node = .empty name := by
  rw [isNode_iff]
  exact or_iff_left fun ⟨_, hchild, _⟩ => List.not_mem_nil hchild

/-- An empty condition stands somewhere in the tree. -/
def HasEmpty (tree : Condition) : Prop :=
  ∃ node : Condition, node.IsNode tree ∧ node.isEmpty = true

theorem hasEmpty_empty (name : String) : (Condition.empty name).HasEmpty :=
  ⟨_, .root _, rfl⟩

theorem HasEmpty.of_child {child tree : Condition} (h : child.HasEmpty)
    (hchild : child ∈ tree.children) : tree.HasEmpty := by
  obtain ⟨node, hnode, hempty⟩ := h
  exact ⟨node, .under hchild hnode, hempty⟩

/-! ## Heights -/

mutual

/-- The number of nodes on the longest path from the root downwards. -/
def height : Condition → Nat
  | .equals _ _ => 1
  | .and _ children => 1 + greatestHeight children
  | .or _ children => 1 + greatestHeight children
  | .not _ child => 1 + child.height
  | .empty _ => 1

/-- The height of the highest tree; zero if there is none. -/
def greatestHeight : List Condition → Nat
  | [] => 0
  | child :: rest => max child.height (greatestHeight rest)

end

@[simp] theorem height_equals (name : String) (clause : Clause) :
    (Condition.equals name clause).height = 1 := by rw [height]

@[simp] theorem height_empty (name : String) : (Condition.empty name).height = 1 := by rw [height]

theorem greatestHeight_le_iff {children : List Condition} {bound : Nat} :
    greatestHeight children ≤ bound ↔ ∀ child ∈ children, child.height ≤ bound := by
  induction children with
  | nil => simp [greatestHeight]
  | cons child rest ih => rw [greatestHeight, Nat.max_le, ih, List.forall_mem_cons]

/-- Some tree is as high as the highest. -/
theorem exists_height_eq_greatestHeight {children : List Condition} (h : children ≠ []) :
    ∃ child ∈ children, child.height = greatestHeight children := by
  induction children with
  | nil => exact absurd rfl h
  | cons child rest ih =>
    rw [greatestHeight]
    by_cases hle : greatestHeight rest ≤ child.height
    · exact ⟨child, List.mem_cons_self, (Nat.max_eq_left hle).symm⟩
    · have hrest : rest ≠ [] := by
        intro hnil
        rw [hnil, greatestHeight] at hle
        omega
      obtain ⟨other, hother, hheight⟩ := ih hrest
      refine ⟨other, List.mem_cons_of_mem child hother, ?_⟩
      rw [hheight]
      omega

theorem foldl_max_height (children : List Condition) (start : Nat) :
    (children.map height).foldl max start = max start (greatestHeight children) := by
  induction children generalizing start with
  | nil => simp [greatestHeight]
  | cons child rest ih => rw [List.map_cons, List.foldl_cons, ih, greatestHeight, Nat.max_assoc]

theorem height_eq (tree : Condition) : tree.height = 1 + greatestHeight tree.children := by
  cases tree with
  | equals => rw [height_equals, children, greatestHeight] <;> simp
  | empty => rw [height_empty, children, greatestHeight] <;> simp
  | and | or => rw [height, children]
  | not name child => rw [height, children, greatestHeight, greatestHeight, Nat.max_zero]

theorem height_pos (tree : Condition) : 0 < tree.height := by
  rw [height_eq]
  omega

theorem height_lt_of_mem_children {child tree : Condition} (h : child ∈ tree.children) :
    child.height < tree.height := by
  have hle := greatestHeight_le_iff.1 (Nat.le_refl (greatestHeight tree.children)) child h
  rw [height_eq tree]
  omega

theorem IsNode.height_le {node tree : Condition} (h : node.IsNode tree) :
    node.height ≤ tree.height := by
  induction h with
  | root => exact Nat.le_refl _
  | under hchild _ ih => exact Nat.le_trans ih (Nat.le_of_lt (height_lt_of_mem_children hchild))

/-! ## Combinations

A connective that takes a number of children keeps all of them, so that nothing of them is lost in
the tree that joins them. -/

theorem length_eq_one_of_allows_not {n : Nat} (h : Connective.not.allows n = true) : n = 1 :=
  beq_iff_eq.1 h

@[simp] theorem name_combine (name : String) (connective : Connective)
    (children : List Condition) : (combine name connective children).name = name := by
  match connective, children with
  | .and, _ => rfl
  | .or, _ => rfl
  | .not, [] => rfl
  | .not, [_] => rfl
  | .not, _ :: _ :: _ => rfl

theorem children_combine {name : String} {connective : Connective} {children : List Condition}
    (h : connective.allows children.length = true) :
    (combine name connective children).children = children := by
  match connective, children with
  | .and, _ => rfl
  | .or, _ => rfl
  | .not, [_] => rfl
  | .not, [] => exact absurd (length_eq_one_of_allows_not h) (by decide)
  | .not, _ :: _ :: rest => exact absurd (length_eq_one_of_allows_not h) (by simp)

theorem isEmpty_combine {name : String} {connective : Connective} {children : List Condition}
    (h : connective.allows children.length = true) :
    (combine name connective children).isEmpty = false := by
  match connective, children with
  | .and, _ => rfl
  | .or, _ => rfl
  | .not, [_] => rfl
  | .not, [] => exact absurd (length_eq_one_of_allows_not h) (by decide)
  | .not, _ :: _ :: rest => exact absurd (length_eq_one_of_allows_not h) (by simp)

theorem height_combine {name : String} {connective : Connective} {children : List Condition}
    (h : connective.allows children.length = true) :
    (combine name connective children).height = 1 + greatestHeight children := by
  rw [height_eq, children_combine h]

end TemplateConditions.Condition
