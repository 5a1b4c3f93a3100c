import Mathlib.Logic.Relation
import Mathlib.Tactic.Choose
import TemplateConditions.Proofs.Condition.Declared
import TemplateConditions.Proofs.Condition.Nodes

/-!
# Unfolded trees

A tree is unfolded if each of its nodes says what its name is declared to say.  A name has at most
one unfolded tree.  It has one of a given height at most if and only if no path of references that
starts at the name is longer; so a name from which a cycle can be reached has none.
-/

namespace TemplateConditions

namespace Condition

open Definitions

variable {definitions : Definitions}

/-- The node says what its name is declared to say: a comparison is the one that is declared, a
combination has a child for each target in order, and only a name that says nothing is empty. -/
def Agrees (definitions : Definitions) : Condition → Prop
  | .equals name clause => definitions.Compares name clause
  | .and name children => definitions.Combines name .and (children.map Condition.name)
  | .or name children => definitions.Combines name .or (children.map Condition.name)
  | .not name child => definitions.Combines name .not [child.name]
  | .empty name => definitions.SaysNothing name

/-- Every node of the tree says what its name is declared to say. -/
def Unfolded (definitions : Definitions) (tree : Condition) : Prop :=
  ∀ node : Condition, node.IsNode tree → node.Agrees definitions

/-! ## Single nodes -/

theorem Agrees.eq_equals {tree : Condition} {clause : Clause} (h : tree.Agrees definitions)
    (hcompares : definitions.Compares tree.name clause) : tree = .equals tree.name clause := by
  cases tree with
  | equals name other =>
    rw [Compares.unique h hcompares]
    rfl
  | and | or | not => exact absurd h hcompares.not_combines
  | empty => exact absurd hcompares (h.1 clause)

theorem Agrees.eq_combine {tree : Condition} {connective : Connective} {targets : List String}
    (h : tree.Agrees definitions) (hcombines : definitions.Combines tree.name connective targets) :
    tree = combine tree.name connective tree.children ∧
      tree.children.map Condition.name = targets := by
  cases tree with
  | equals => exact absurd hcombines (Compares.not_combines h)
  | and | or | not =>
    obtain ⟨rfl, rfl⟩ := Combines.unique h hcombines
    exact ⟨rfl, rfl⟩
  | empty => exact absurd hcombines (h.2 connective targets)

theorem Agrees.eq_empty {tree : Condition} (h : tree.Agrees definitions)
    (hnothing : definitions.SaysNothing tree.name) : tree = .empty tree.name := by
  cases tree with
  | equals name clause => exact absurd h (hnothing.1 clause)
  | and | or | not => exact absurd h (hnothing.2 _ _)
  | empty => rfl

theorem agrees_combine {name : String} {connective : Connective} {children : List Condition}
    (h : definitions.Combines name connective (children.map Condition.name)) :
    (combine name connective children).Agrees definitions := by
  have hallows := h.allowed
  rw [List.length_map] at hallows
  match connective, children with
  | .and, _ => exact h
  | .or, _ => exact h
  | .not, [_] => exact h
  | .not, [] => exact absurd (length_eq_one_of_allows_not hallows) (by decide)
  | .not, _ :: _ :: _ => exact absurd (length_eq_one_of_allows_not hallows) (by simp)

/-- A node that has children is a combination of their names. -/
theorem Agrees.combines {tree child : Condition} (h : tree.Agrees definitions)
    (hchild : child ∈ tree.children) :
    ∃ connective,
      definitions.Combines tree.name connective (tree.children.map Condition.name) := by
  cases tree with
  | equals | empty => exact absurd hchild List.not_mem_nil
  | and => exact ⟨.and, h⟩
  | or => exact ⟨.or, h⟩
  | not => exact ⟨.not, h⟩

/-! ## Building unfolded trees -/

theorem unfolded_of_children {tree : Condition} (h : tree.Agrees definitions)
    (hchildren : ∀ child ∈ tree.children, child.Unfolded definitions) :
    tree.Unfolded definitions := by
  intro node hnode
  obtain rfl | ⟨child, hchild, hnode⟩ := isNode_iff.1 hnode
  · exact h
  · exact hchildren child hchild node hnode

theorem unfolded_equals {name : String} {clause : Clause}
    (h : definitions.Compares name clause) :
    (Condition.equals name clause).Unfolded definitions :=
  unfolded_of_children h fun _ hchild => absurd hchild List.not_mem_nil

theorem unfolded_empty {name : String} (h : definitions.SaysNothing name) :
    (Condition.empty name).Unfolded definitions :=
  unfolded_of_children h fun _ hchild => absurd hchild List.not_mem_nil

theorem unfolded_combine {name : String} {connective : Connective} {children : List Condition}
    (h : definitions.Combines name connective (children.map Condition.name))
    (hchildren : ∀ child ∈ children, child.Unfolded definitions) :
    (combine name connective children).Unfolded definitions := by
  refine unfolded_of_children (agrees_combine h) fun child hchild => ?_
  rw [children_combine (by rw [← List.length_map Condition.name]; exact h.allowed)] at hchild
  exact hchildren child hchild

/-! ## Taking unfolded trees apart -/

theorem Unfolded.agrees {tree : Condition} (h : tree.Unfolded definitions) :
    tree.Agrees definitions :=
  h tree (.root tree)

theorem Unfolded.node {node tree : Condition} (h : tree.Unfolded definitions)
    (hnode : node.IsNode tree) : node.Unfolded definitions :=
  fun lower hlower => h lower (hlower.trans hnode)

theorem Unfolded.child {child tree : Condition} (h : tree.Unfolded definitions)
    (hchild : child ∈ tree.children) : child.Unfolded definitions :=
  h.node (isNode_of_mem_children hchild)

/-- There is a child for every name that the root combines. -/
theorem Unfolded.exists_child {tree : Condition} {target : String}
    (h : tree.Unfolded definitions) (hlive : definitions.LiveChild tree.name target) :
    ∃ child ∈ tree.children, child.name = target ∧ child.Unfolded definitions := by
  obtain ⟨connective, targets, hcombines, htarget⟩ := hlive
  rw [← (h.agrees.eq_combine hcombines).2] at htarget
  obtain ⟨child, hchild, hname⟩ := List.mem_map.1 htarget
  exact ⟨child, hchild, hname, h.child hchild⟩

/-- All nodes of the unfolded tree of a declared name have declared names. -/
theorem Unfolded.declares_node {node tree : Condition} (h : tree.Unfolded definitions)
    (hnode : node.IsNode tree) (hdeclared : definitions.declares tree.name = true) :
    definitions.declares node.name = true := by
  induction hnode with
  | root => exact hdeclared
  | under hchild _ ih =>
    obtain ⟨connective, hcombines⟩ := h.agrees.combines hchild
    exact ih (h.child hchild) (hcombines.declared _ (List.mem_map_of_mem hchild))

/-! ## Uniqueness -/

/-- Lists with the same names are equal if their members are determined by name. -/
theorem eq_of_map_name_eq {children others : List Condition}
    (hnames : children.map Condition.name = others.map Condition.name)
    (h : ∀ child ∈ children, ∀ other ∈ others, child.name = other.name → child = other) :
    children = others := by
  induction children generalizing others with
  | nil => exact (List.map_eq_nil_iff.1 hnames.symm).symm
  | cons child rest ih =>
    cases others with
    | nil => exact absurd hnames (by simp)
    | cons other others =>
      rw [List.map_cons, List.map_cons, List.cons.injEq] at hnames
      rw [h child List.mem_cons_self other List.mem_cons_self hnames.1]
      rw [ih hnames.2 fun a ha b hb =>
        h a (List.mem_cons_of_mem _ ha) b (List.mem_cons_of_mem _ hb)]

/-- A name has at most one unfolded tree. -/
theorem Unfolded.unique {tree other : Condition} (h : tree.Unfolded definitions)
    (h' : other.Unfolded definitions) (hname : tree.name = other.name) : tree = other := by
  -- The children of both trees have the same names in the same order.
  induction tree using induction_on_children generalizing other with
  | step tree ih =>
    obtain ⟨clause, hcompares⟩ | ⟨connective, targets, hcombines⟩ | hnothing :=
      definitions.meaning_cases tree.name
    · rw [h.agrees.eq_equals hcompares, h'.agrees.eq_equals (hname ▸ hcompares), hname]
    · obtain ⟨htree, htargets⟩ := h.agrees.eq_combine hcombines
      obtain ⟨hother, htargets'⟩ := h'.agrees.eq_combine (hname ▸ hcombines)
      have hchildren : tree.children = other.children :=
        eq_of_map_name_eq (htargets.trans htargets'.symm) fun child hchild sibling hsibling =>
          ih child hchild (h.child hchild) (h'.child hsibling)
      rw [htree, hother, hchildren, hname]
    · rw [h.agrees.eq_empty hnothing, h'.agrees.eq_empty (hname ▸ hnothing), hname]

/-! ## Cycles -/

/-- Whatever can be reached from a name stands deeper in its unfolded tree. -/
theorem Unfolded.exists_below {tree : Condition} {target : String}
    (h : tree.Unfolded definitions)
    (hreach : Relation.TransGen definitions.LiveChild tree.name target) :
    ∃ lower : Condition, lower.name = target ∧ lower.Unfolded definitions ∧
      lower.height < tree.height := by
  induction hreach with
  | single hlive =>
    obtain ⟨child, hchild, hname, hunfolded⟩ := h.exists_child hlive
    exact ⟨child, hname, hunfolded, height_lt_of_mem_children hchild⟩
  | tail _ hlive ih =>
    obtain ⟨lower, rfl, hunfolded, hlt⟩ := ih
    obtain ⟨child, hchild, hname, hunfolded⟩ := hunfolded.exists_child hlive
    exact ⟨child, hname, hunfolded, Nat.lt_trans (height_lt_of_mem_children hchild) hlt⟩

/-- A name on a cycle has no unfolded tree. -/
theorem Unfolded.acyclic {tree : Condition} (h : tree.Unfolded definitions) :
    ¬ Relation.TransGen definitions.LiveChild tree.name tree.name := by
  intro hcycle
  obtain ⟨lower, hname, hunfolded, hlt⟩ := h.exists_below hcycle
  rw [hunfolded.unique h hname] at hlt
  exact absurd hlt (Nat.lt_irrefl _)

/-- No name on a cycle can be reached from a name that has an unfolded tree. -/
theorem Unfolded.acyclic_below {tree : Condition} {target : String}
    (h : tree.Unfolded definitions)
    (hreach : Relation.ReflTransGen definitions.LiveChild tree.name target) :
    ¬ Relation.TransGen definitions.LiveChild target target := by
  obtain rfl | hbelow := Relation.reflTransGen_iff_eq_or_transGen.1 hreach
  · exact h.acyclic
  · obtain ⟨lower, rfl, hunfolded, _⟩ := h.exists_below hbelow
    exact hunfolded.acyclic

/-! ## Paths -/

theorem Unfolded.length_le_height {tree : Condition} {rest : List String}
    (h : tree.Unfolded definitions) (hpath : definitions.LivePath (tree.name :: rest)) :
    (tree.name :: rest).length ≤ tree.height := by
  induction rest generalizing tree with
  | nil => exact tree.height_pos
  | cons target rest ih =>
    obtain ⟨hlive, hrest⟩ := List.isChain_cons_cons.1 hpath
    obtain ⟨child, hchild, rfl, hunfolded⟩ := h.exists_child hlive
    have hle := ih hunfolded hrest
    have hlt := height_lt_of_mem_children hchild
    simp only [List.length_cons] at hle ⊢
    omega

/-- A name has an unfolded tree if the paths that start at it are bounded. -/
theorem exists_unfolded {name : String} {limit : Nat}
    (h : definitions.PathsWithin limit name) :
    ∃ tree : Condition, tree.name = name ∧ tree.Unfolded definitions ∧ tree.height ≤ limit := by
  -- The limit bounds the height, and a path from a target is one name shorter.
  induction limit generalizing name with
  | zero => exact absurd (h [] (List.isChain_singleton name)) (by simp)
  | succ limit ih =>
    obtain ⟨clause, hcompares⟩ | ⟨connective, targets, hcombines⟩ | hnothing :=
      definitions.meaning_cases name
    · exact ⟨.equals name clause, rfl, unfolded_equals hcompares, by simp⟩
    · have hbelow : ∀ target ∈ targets, ∃ tree : Condition, tree.name = target ∧
          tree.Unfolded definitions ∧ tree.height ≤ limit := by
        intro target htarget
        refine ih fun rest hpath => ?_
        have hlive : definitions.LiveChild name target := ⟨connective, targets, hcombines, htarget⟩
        have hle := h (target :: rest) (List.isChain_cons_cons.2 ⟨hlive, hpath⟩)
        rw [List.length_cons] at hle
        exact Nat.le_of_succ_le_succ hle
      -- One subtree for each target, so that targets that occur twice get the same tree.
      choose! subtree hname hunfolded hheight using hbelow
      have hnames : (targets.map subtree).map Condition.name = targets := by
        rw [List.map_map]
        exact (List.map_congr_left hname).trans (List.map_id targets)
      have hallows : connective.allows (targets.map subtree).length = true := by
        rw [List.length_map]
        exact hcombines.allowed
      refine ⟨combine name connective (targets.map subtree), name_combine _ _ _, ?_, ?_⟩
      · refine unfolded_combine (hnames.symm ▸ hcombines) fun child hchild => ?_
        obtain ⟨target, htarget, rfl⟩ := List.mem_map.1 hchild
        exact hunfolded target htarget
      · have hle : greatestHeight (targets.map subtree) ≤ limit :=
          greatestHeight_le_iff.2 fun child hchild => by
            obtain ⟨target, htarget, rfl⟩ := List.mem_map.1 hchild
            exact hheight target htarget
        rw [height_combine hallows]
        omega
    · exact ⟨.empty name, rfl, unfolded_empty hnothing, by simp⟩

/-- The paths from a name are bounded exactly if it has an unfolded tree of bounded height. -/
theorem pathsWithin_iff {name : String} {limit : Nat} :
    definitions.PathsWithin limit name ↔
      ∃ tree : Condition, tree.name = name ∧ tree.Unfolded definitions ∧ tree.height ≤ limit := by
  constructor
  · exact exists_unfolded
  · rintro ⟨tree, rfl, hunfolded, hheight⟩ rest hpath
    exact Nat.le_trans (hunfolded.length_le_height hpath) hheight

end Condition

end TemplateConditions
