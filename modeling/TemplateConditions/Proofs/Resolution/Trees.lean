import TemplateConditions.Condition.Collection
import TemplateConditions.Proofs.Condition.Unfolding
import TemplateConditions.Proofs.Resolution.Visit

/-!
# Resolved trees

Resolution returns the unfolded tree of a name if that is not higher than the limit, and an empty
condition otherwise.  The trees that a session keeps are unfolded trees with their heights, so it
makes no difference which names were resolved before.
-/

namespace TemplateConditions

variable {definitions : Definitions}

/-! ## Built trees -/

/-- The built tree is the unfolded tree of the name, and its height is the remembered one. -/
structure Built.Unfolds (definitions : Definitions) (name : String) (built : Built) : Prop where
  name_eq : built.tree.name = name
  unfolded : built.tree.Unfolded definitions
  height_eq : built.height = built.tree.height

theorem Built.unfolds_equals {name : String} {clause : Clause}
    (h : definitions.Compares name clause) :
    Built.Unfolds definitions name ⟨.equals name clause, 1⟩ :=
  ⟨rfl, Condition.unfolded_equals h, (Condition.height_equals name clause).symm⟩

theorem Built.unfolds_empty {name : String} (h : definitions.SaysNothing name) :
    Built.Unfolds definitions name ⟨.empty name, 1⟩ :=
  ⟨rfl, Condition.unfolded_empty h, (Condition.height_empty name).symm⟩

theorem tree_combineBuilt (name : String) (connective : Connective) (children : List Built) :
    (combineBuilt name connective children).tree =
      Condition.combine name connective (children.map fun child => child.tree) := by
  rw [combineBuilt, Resolved.tree_combine, List.map_map]
  rfl

theorem children_combineBuilt (name : String) {connective : Connective} {children : List Built}
    (h : connective.allows children.length = true) :
    (combineBuilt name connective children).tree.children =
      children.map fun child => child.tree := by
  rw [tree_combineBuilt, Condition.children_combine]
  rw [List.length_map]
  exact h

theorem isEmpty_combineBuilt (name : String) {connective : Connective} {children : List Built}
    (h : connective.allows children.length = true) :
    (combineBuilt name connective children).tree.isEmpty = false := by
  rw [tree_combineBuilt, Condition.isEmpty_combine]
  rw [List.length_map]
  exact h

theorem height_combineBuilt (name : String) (connective : Connective) {children : List Built}
    (h : ∀ child ∈ children, child.height = child.tree.height) :
    (combineBuilt name connective children).height =
      1 + Condition.greatestHeight (children.map fun child => child.tree) := by
  have hheights : children.map Built.height =
      (children.map fun child => child.tree).map Condition.height := by
    rw [List.map_map]
    exact List.map_congr_left h
  rw [combineBuilt, hheights, Condition.foldl_max_height, Nat.zero_max]

theorem foldl_max_le {heights : List Nat} {start bound : Nat} (hstart : start ≤ bound)
    (h : ∀ height ∈ heights, height ≤ bound) : heights.foldl max start ≤ bound := by
  induction heights generalizing start with
  | nil => exact hstart
  | cons height rest ih =>
    obtain ⟨hheight, hrest⟩ := List.forall_mem_cons.1 h
    exact ih (Nat.max_le.2 ⟨hstart, hheight⟩) hrest

theorem height_combineBuilt_le {name : String} {connective : Connective} {children : List Built}
    {room : Nat} (hroom : ∀ child ∈ children, child.height ≤ room) :
    (combineBuilt name connective children).height ≤ room + 1 := by
  have hheights : (children.map Built.height).foldl max 0 ≤ room :=
    foldl_max_le (Nat.zero_le room) (List.forall_mem_map.2 hroom)
  rw [combineBuilt, Nat.add_comm]
  exact Nat.succ_le_succ hheights

theorem Built.unfolds_combineBuilt {name : String} {connective : Connective}
    {children : List Built}
    (h : definitions.Combines name connective (children.map fun child => child.tree.name))
    (hchildren : ∀ child ∈ children, child.Unfolds definitions child.tree.name) :
    (combineBuilt name connective children).Unfolds definitions name := by
  have hnames : (children.map fun child => child.tree).map Condition.name =
      children.map fun child => child.tree.name := List.map_map
  have hallowed : connective.allows (children.map fun child => child.tree).length = true := by
    rw [List.length_map, ← List.length_map fun child : Built => child.tree.name]
    exact h.allowed
  constructor
  · rw [tree_combineBuilt, Condition.name_combine]
  · rw [tree_combineBuilt]
    refine Condition.unfolded_combine (hnames.symm ▸ h) fun tree htree => ?_
    obtain ⟨child, hchild, rfl⟩ := List.mem_map.1 htree
    exact (hchildren child hchild).unfolded
  · rw [tree_combineBuilt, Condition.height_combine hallowed]
    exact height_combineBuilt name connective fun child hchild => (hchildren child hchild).height_eq

/-! ## Sound sessions -/

/-- Every tree that the session keeps is the unfolded tree of its name. -/
def Session.Sound (definitions : Definitions) (session : Session) : Prop :=
  session.Keeps (Built.Unfolds definitions)

/-! ## What a visit settles -/

/-- No unfolded tree of the name has room. -/
def Definitions.Exceeds (definitions : Definitions) (room : Nat) (name : String) : Prop :=
  ∀ tree : Condition, tree.name = name → tree.Unfolded definitions → room < tree.height

/-- A tree that is returned is the unfolded one and has room; where none is returned, the unfolded
tree would not have had room. -/
def Settles (definitions : Definitions) (room : Nat) (name : String) :
    Except Finding Built → Prop
  | .ok built => built.Unfolds definitions name ∧ built.height ≤ room
  | .error _ => definitions.Exceeds room name

/-- The same for several names, which are given up because of one of them. -/
def SettlesEach (definitions : Definitions) (room : Nat) (names : List String) :
    Except Finding (List Built) → Prop
  | .ok children => children.map (fun child => child.tree.name) = names ∧
      ∀ child ∈ children, child.Unfolds definitions child.tree.name ∧ child.height ≤ room
  | .error _ => ∃ name ∈ names, definitions.Exceeds room name

theorem visitEach_settles {room : Nat} {session : Session} {names : List String}
    {outcome : Outcome (List Built)}
    (h : VisitEach (fun session name outcome => session.Sound definitions →
      outcome.1.Sound definitions ∧ Settles definitions room name outcome.2)
      session names outcome)
    (hsound : session.Sound definitions) :
    outcome.1.Sound definitions ∧ SettlesEach definitions room names outcome.2 := by
  induction h with
  | done session => exact ⟨hsound, rfl, fun child hchild => absurd hchild List.not_mem_nil⟩
  | stop hfirst =>
    obtain ⟨hafter, hexceeds⟩ := hfirst hsound
    exact ⟨hafter, _, List.mem_cons_self, hexceeds⟩
  | stopLater hfirst _ ih =>
    obtain ⟨hafter, name, hname, hexceeds⟩ := ih (hfirst hsound).1
    exact ⟨hafter, name, List.mem_cons_of_mem _ hname, hexceeds⟩
  | more hfirst _ ih =>
    obtain ⟨hbetween, hunfolds, hroom⟩ := hfirst hsound
    obtain ⟨hafter, hnames, hothers⟩ := ih hbetween
    refine ⟨hafter, ?_, List.forall_mem_cons.2 ⟨⟨?_, hroom⟩, hothers⟩⟩
    · rw [List.map_cons, hnames, hunfolds.name_eq]
    · rw [hunfolds.name_eq]
      exact hunfolds

/-- The path leads to the name: each of its names, which are listed from the last one back to the
first, combines the one before it in the list. -/
def LeadsTo (definitions : Definitions) (path : List String) (name : String) : Prop :=
  (name :: path).IsChain fun lower upper => definitions.LiveChild upper lower

theorem LeadsTo.cons {path : List String} {name target : String}
    (h : LeadsTo definitions path name) (hlive : definitions.LiveChild name target) :
    LeadsTo definitions (name :: path) target :=
  List.isChain_cons_cons.2 ⟨hlive, h⟩

/-- The name can be reached from every name on the path. -/
theorem LeadsTo.reaches {path : List String} {name upper : String}
    (h : LeadsTo definitions path name) (hupper : upper ∈ path) :
    Relation.TransGen definitions.LiveChild upper name := by
  induction path generalizing name with
  | nil => exact absurd hupper List.not_mem_nil
  | cons last rest ih =>
    obtain ⟨hlive, hrest⟩ := List.isChain_cons_cons.1 h
    obtain rfl | hupper := List.mem_cons.1 hupper
    · exact .single hlive
    · exact .tail (ih hrest hupper) hlive

/-- A target that exceeds the room below a name makes the name exceed its own. -/
theorem exceeds_of_target {room : Nat} {name target : String}
    (hlive : definitions.LiveChild name target) (h : definitions.Exceeds room target) :
    definitions.Exceeds (room + 1) name := by
  rintro tree rfl hunfolded
  obtain ⟨child, hchild, hname, hchildUnfolded⟩ := hunfolded.exists_child hlive
  have hroom := h child hname hchildUnfolded
  have hlt := Condition.height_lt_of_mem_children hchild
  omega

/-- One step: if the visits of the targets settle them, the visit of the name settles it. -/
theorem visit_settles {room : Nat} {path : List String} {session : Session} {name : String}
    {outcome : Outcome Built}
    (h : Visit definitions (fun room path session name outcome =>
      session.Sound definitions → LeadsTo definitions path name →
        outcome.1.Sound definitions ∧ Settles definitions room name outcome.2)
      room path session name outcome)
    (hsound : session.Sound definitions) (hpath : LeadsTo definitions path name) :
    outcome.1.Sound definitions ∧ Settles definitions room name outcome.2 := by
  cases h with
  | reused hbuilt hroom => exact ⟨hsound, hsound _ _ hbuilt, hroom⟩
  | tooHigh hbuilt hroom =>
    -- The kept tree is the only unfolded one, so its height decides for all of them.
    refine ⟨hsound.report _, fun tree hname hunfolded => ?_⟩
    have hkept := hsound _ _ hbuilt
    rw [hkept.height_eq, hkept.unfolded.unique hunfolded (hkept.name_eq.trans hname.symm)] at hroom
    exact hroom
  | circular _ hmem =>
    -- A name on its own path lies on a cycle.
    refine ⟨hsound.report _, fun tree hname hunfolded => ?_⟩
    subst hname
    exact absurd (hpath.reaches hmem) hunfolded.acyclic
  | tooDeep => exact ⟨hsound.report _, fun tree _ _ => tree.height_pos⟩
  | undeclared _ hfound =>
    exact ⟨hsound.report _, Built.unfolds_empty (Definitions.saysNothing_of_not_found hfound),
      Nat.le_add_left 1 _⟩
  | malformed _ hfound hread =>
    have hunfolds := Built.unfolds_empty (Definitions.saysNothing_of_error hfound hread)
    exact ⟨(hsound.report _).keep hunfolds, hunfolds, Nat.le_add_left 1 _⟩
  | comparison _ hcompares =>
    have hunfolds := Built.unfolds_equals hcompares
    exact ⟨hsound.keep hunfolds, hunfolds, Nat.le_add_left 1 _⟩
  | dangling _ hfound hallowed hmissing =>
    have hunfolds := Built.unfolds_empty
      (Definitions.saysNothing_of_missing hfound hallowed hmissing)
    exact ⟨(hsound.reportAll _).keep hunfolds, hunfolds, Nat.le_add_left 1 _⟩
  | combined _ hcombines hbelow =>
    -- The path to a target is the path to the name and the name itself.
    obtain ⟨hafter, hnames, hchildren⟩ := visitEach_settles
      (hbelow.imp fun _ _ htarget _ hvisit hsound =>
        hvisit hsound (hpath.cons ⟨_, _, hcombines, htarget⟩)) hsound
    have hunfolds := Built.unfolds_combineBuilt (hnames.symm ▸ hcombines)
      fun child hchild => (hchildren child hchild).1
    exact ⟨hafter.keep hunfolds, hunfolds,
      height_combineBuilt_le fun child hchild => (hchildren child hchild).2⟩
  | degraded _ hcombines hbelow =>
    obtain ⟨hafter, target, htarget, hexceeds⟩ := visitEach_settles
      (hbelow.imp fun _ _ htarget _ hvisit hsound =>
        hvisit hsound (hpath.cons ⟨_, _, hcombines, htarget⟩)) hsound
    refine ⟨?_, exceeds_of_target ⟨_, _, hcombines, htarget⟩ hexceeds⟩
    split
    · exact hafter
    · exact hafter.report _

/-- Resolution below a path that leads to a name settles it, and keeps the session sound. -/
theorem resolveBelow_settles (room : Nat) {path : List String} {session : Session} {name : String}
    (hsound : session.Sound definitions) (hpath : LeadsTo definitions path name) :
    (resolveBelow definitions room path session name).1.Sound definitions ∧
      Settles definitions room name (resolveBelow definitions room path session name).2 :=
  resolveBelow_induction (fun h hsound hpath => visit_settles h hsound hpath) room path session name
    hsound hpath

/-! ## Resolution from the top -/

theorem not_exceeds_iff {limit : Nat} {name : String} :
    ¬ definitions.Exceeds limit name ↔ definitions.PathsWithin limit name := by
  rw [Condition.pathsWithin_iff]
  constructor
  · intro h
    by_contra hnone
    exact h fun tree hname hunfolded =>
      Nat.lt_of_not_le fun hle => hnone ⟨tree, hname, hunfolded, hle⟩
  · rintro ⟨tree, hname, hunfolded, hle⟩ hexceeds
    exact absurd (hexceeds tree hname hunfolded) (Nat.not_lt_of_le hle)

theorem exceeds_iff {limit : Nat} {name : String} :
    definitions.Exceeds limit name ↔ ¬ definitions.PathsWithin limit name := by
  rw [← not_exceeds_iff, not_not]

/-- The tree that stands for a name within a limit: its unfolded tree, or an empty condition if that
is too high or there is none. -/
def Condition.StandsFor (definitions : Definitions) (limit : Nat) (name : String)
    (tree : Condition) : Prop :=
  (tree.name = name ∧ tree.Unfolded definitions ∧ tree.height ≤ limit) ∨
    (tree = .empty name ∧ definitions.Exceeds limit name)

theorem Condition.StandsFor.unique {limit : Nat} {name : String} {tree other : Condition}
    (h : tree.StandsFor definitions limit name) (h' : other.StandsFor definitions limit name) :
    tree = other := by
  obtain ⟨hname, hunfolded, hheight⟩ | ⟨rfl, hexceeds⟩ := h
  · obtain ⟨hname', hunfolded', _⟩ | ⟨_, hexceeds⟩ := h'
    · exact hunfolded.unique hunfolded' (hname.trans hname'.symm)
    · exact absurd (hexceeds tree hname hunfolded) (Nat.not_lt_of_le hheight)
  · obtain ⟨hname', hunfolded', hheight⟩ | ⟨rfl, _⟩ := h'
    · exact absurd (hexceeds other hname' hunfolded') (Nat.not_lt_of_le hheight)
    · rfl

theorem Condition.StandsFor.name_eq {limit : Nat} {name : String} {tree : Condition}
    (h : tree.StandsFor definitions limit name) : tree.name = name := by
  obtain ⟨hname, _⟩ | ⟨rfl, _⟩ := h
  · exact hname
  · rfl

/-- What stands below the root of such a tree stands for its own name, whatever room the path from
the root has left for it. -/
theorem Condition.StandsFor.node {limit : Nat} {name : String} {tree node : Condition}
    (h : tree.StandsFor definitions limit name) (hnode : node.IsNode tree) :
    node.StandsFor definitions limit node.name := by
  obtain ⟨rfl, hunfolded, hheight⟩ | ⟨rfl, hexceeds⟩ := h
  · exact .inl ⟨rfl, hunfolded.node hnode, Nat.le_trans hnode.height_le hheight⟩
  · rw [Condition.isNode_empty_iff.1 hnode]
    exact .inr ⟨rfl, hexceeds⟩

theorem Condition.StandsFor.declares_node {limit : Nat} {name : String} {tree node : Condition}
    (h : tree.StandsFor definitions limit name) (hname : definitions.declares name = true)
    (hnode : node.IsNode tree) : definitions.declares node.name = true := by
  obtain ⟨rfl, hunfolded, _⟩ | ⟨rfl, _⟩ := h
  · exact hunfolded.declares_node hnode hname
  · rw [Condition.isNode_empty_iff.1 hnode]
    exact hname

namespace Session

theorem resolve_standsFor (limit : Nat) {session : Session} (name : String)
    (hsound : session.Sound definitions) :
    (session.resolve definitions limit name).1.Sound definitions ∧
      (session.resolve definitions limit name).2.tree.StandsFor definitions limit name := by
  obtain ⟨hafter, hsettles⟩ := resolveBelow_settles limit hsound
    (show LeadsTo definitions [] name from List.isChain_singleton name)
  obtain ⟨after, built, hbelow, hresolve⟩ | ⟨after, cause, hbelow, hresolve⟩ :=
    resolve_cases definitions limit session name
  · rw [hbelow] at hafter hsettles
    rw [hresolve]
    obtain ⟨hunfolds, hroom⟩ := hsettles
    exact ⟨hafter, .inl ⟨hunfolds.name_eq, hunfolds.unfolded, hunfolds.height_eq ▸ hroom⟩⟩
  · rw [hbelow] at hafter hsettles
    rw [hresolve]
    exact ⟨hafter, .inr ⟨rfl, hsettles⟩⟩

/-- What is returned for a name does not depend on the session. -/
theorem resolve_eq (limit : Nat) {session : Session} (name : String)
    (hsound : session.Sound definitions) :
    (session.resolve definitions limit name).2 = (Condition.resolve definitions limit name).1 :=
  Resolved.ext_tree ((resolve_standsFor limit name hsound).2.unique
    (resolve_standsFor limit name keeps_new).2)

theorem resolveAll_eq (limit : Nat) {session : Session} (names : List String)
    (hsound : session.Sound definitions) :
    (session.resolveAll definitions limit names).1.Sound definitions ∧
      (session.resolveAll definitions limit names).2 =
        names.map fun name => (Condition.resolve definitions limit name).1 := by
  induction names generalizing session with
  | nil => exact ⟨hsound, rfl⟩
  | cons name rest ih =>
    obtain ⟨hafter, hrest⟩ := ih (resolve_standsFor limit name hsound).1
    rw [List.map_cons, ← hrest, ← resolve_eq limit name hsound]
    exact ⟨hafter, rfl⟩

end Session

theorem resolve_standsFor (definitions : Definitions) (limit : Nat) (name : String) :
    (Condition.resolve definitions limit name).1.tree.StandsFor definitions limit name :=
  (Session.resolve_standsFor limit name Session.keeps_new).2

/-- Every node of a resolved tree is what its own name resolves to. -/
theorem resolve_node {limit : Nat} {name : String} {node : Condition}
    (hnode : node.IsNode (Condition.resolve definitions limit name).1.tree) :
    (Condition.resolve definitions limit node.name).1.tree = node :=
  (resolve_standsFor definitions limit node.name).unique
    ((resolve_standsFor definitions limit name).node hnode)

theorem conditions_ofDefinitions (definitions : Definitions) (limit : Nat) :
    (ConditionSet.ofDefinitions definitions limit).conditions =
      (definitions.map Prod.fst).zip ((definitions.map Prod.fst).map fun name =>
        (Condition.resolve definitions limit name).1) := by
  rw [← (Session.resolveAll_eq limit (definitions.map Prod.fst) Session.keeps_new).2]
  rfl

theorem get?_ofDefinitions (definitions : Definitions) (limit : Nat) (name : String) :
    (ConditionSet.ofDefinitions definitions limit).get? name =
      if definitions.declares name then some (Condition.resolve definitions limit name).1
      else none := by
  rw [ConditionSet.get?, conditions_ofDefinitions, Ordered.find?_zip_map]
  by_cases hname : definitions.declares name = true
  · rw [if_pos hname, if_pos ((Ordered.find?_isSome name definitions).1 hname)]
  · rw [if_neg hname, if_neg fun hmem => hname ((Ordered.find?_isSome name definitions).2 hmem)]

theorem get?_eq_some_iff {limit : Nat} {name : String} {condition : Resolved} :
    (ConditionSet.ofDefinitions definitions limit).get? name = some condition ↔
      definitions.declares name = true ∧
        (Condition.resolve definitions limit name).1 = condition := by
  rw [get?_ofDefinitions]
  by_cases hname : definitions.declares name = true
  · rw [if_pos hname, Option.some.injEq, and_iff_right hname]
  · rw [if_neg hname]
    exact iff_of_false (by simp) fun h => hname h.1

/-! ## Main results -/

/-- Resolution returns the full unfolding of a name if no path of references from the name visits
more names than the limit; then no cycle can be reached from it.  Otherwise it returns an empty
condition, which never holds.  So a full unfolding is returned up to the height of the limit, and
not above. -/
theorem resolve_unfolds_within_limit (definitions : Definitions) (limit : Nat) (name : String) :
    let tree := (Condition.resolve definitions limit name).1.tree
    (definitions.PathsWithin limit name →
      (∀ full : Condition, full.name = name ∧ full.Unfolded definitions ↔ full = tree) ∧
        ∀ target, Relation.ReflTransGen definitions.LiveChild name target →
          ¬ Relation.TransGen definitions.LiveChild target target) ∧
    (¬ definitions.PathsWithin limit name →
      tree = .empty name ∧ ∀ scenario, tree.holds scenario = false) ∧
    ∀ full : Condition, full.name = name → full.Unfolded definitions →
      (full.height ≤ limit → tree = full) ∧ (limit < full.height → tree = .empty name) := by
  intro tree
  have hstands : tree.StandsFor definitions limit name := resolve_standsFor definitions limit name
  have hempty : definitions.Exceeds limit name → tree = .empty name :=
    fun hexceeds => hstands.unique (.inr ⟨rfl, hexceeds⟩)
  refine ⟨fun hwithin => ?_, fun hbeyond => ?_,
    fun full hname hunfolded => ⟨fun hle => ?_, fun hlt => ?_⟩⟩
  · obtain ⟨full, rfl, hunfolded, hle⟩ := Condition.pathsWithin_iff.1 hwithin
    have htree : tree = full := hstands.unique (.inl ⟨rfl, hunfolded, hle⟩)
    refine ⟨fun other => ⟨fun h => ?_, fun h => ?_⟩, fun target => hunfolded.acyclic_below⟩
    · rw [htree]
      exact h.2.unique hunfolded h.1
    · rw [h, htree]
      exact ⟨rfl, hunfolded⟩
  · have htree := hempty (by
      by_contra hexceeds
      exact hbeyond (not_exceeds_iff.1 hexceeds))
    refine ⟨htree, fun scenario => ?_⟩
    rw [htree, Condition.holds]
  · exact hstands.unique (.inl ⟨hname, hunfolded, hle⟩)
  · refine hempty fun other hother hunfolded' => ?_
    rw [hunfolded'.unique hunfolded (hother.trans hname.symm)]
    exact hlt

/-- A comparison, and its negation by another condition. -/
def prodAndDev : Definitions :=
  [("Dev", Definition.combinationToJson .not ["Prod"]),
    ("Prod", .object [("Fn::Equals", .array [.object [("Ref", .string "Env")], .string "prod"])])]

/-- The limit decides over a full unfolding of two levels. -/
theorem resolve_dev :
    let prod := Condition.equals "Prod" ⟨Token.ofName "Env", .literal "prod"⟩
    (Condition.resolve prodAndDev 2 "Dev").1.tree = .not "Dev" prod ∧
      (Condition.resolve prodAndDev 1 "Dev").1.tree = .empty "Dev" := by
  intro prod
  have hprod : prod.Unfolded prodAndDev := Condition.unfolded_equals ⟨_, rfl, rfl⟩
  have hcombines : prodAndDev.Combines "Dev" .not ([prod].map Condition.name) :=
    ⟨rfl, rfl, by decide⟩
  have hdev : (Condition.not "Dev" prod).Unfolded prodAndDev :=
    Condition.unfolded_combine hcombines fun child hchild => by
      rw [List.mem_singleton.1 hchild]
      exact hprod
  have hheight : (Condition.not "Dev" prod).height = 2 := rfl
  exact ⟨((resolve_unfolds_within_limit prodAndDev 2 "Dev").2.2 _ rfl hdev).1 (by rw [hheight]),
    ((resolve_unfolds_within_limit prodAndDev 1 "Dev").2.2 _ rfl hdev).2
      (by rw [hheight]; decide)⟩

/-- The names that a session resolved before make no difference to the condition it returns for a
name, whether they were found, refused or given up.  So the conditions of a template are those that
its names resolve to by themselves, and the order in which names are resolved does not matter. -/
theorem resolve_independent_of_history (definitions : Definitions) (limit : Nat) :
    (∀ (history : List String) (name : String),
      ((Session.resolveAll definitions limit {} history).1.resolve definitions limit name).2 =
        (Condition.resolve definitions limit name).1) ∧
    (∀ name, (ConditionSet.ofDefinitions definitions limit).get? name =
      if definitions.declares name then some (Condition.resolve definitions limit name).1
      else none) ∧
    ∀ names others : List String, names.Perm others →
      (names.zip (Session.resolveAll definitions limit {} names).2).Perm
        (others.zip (Session.resolveAll definitions limit {} others).2) := by
  refine ⟨fun history name => ?_, get?_ofDefinitions definitions limit, fun names others h => ?_⟩
  · exact Session.resolve_eq limit name (Session.resolveAll_eq limit history Session.keeps_new).1
  · have hzip (names : List String) :
        names.zip (Session.resolveAll definitions limit {} names).2 =
          names.map fun name => (name, (Condition.resolve definitions limit name).1) := by
      rw [(Session.resolveAll_eq limit names Session.keeps_new).2, ← List.zip_map', List.map_id']
    rw [hzip names, hzip others]
    exact h.map _

/-- The limit gives up a condition in one order only after the other has been kept, and the
conditions are the same. -/
theorem resolve_prod_and_dev :
    (["Dev", "Prod"].zip (Session.resolveAll prodAndDev 1 {} ["Dev", "Prod"]).2).Perm
      (["Prod", "Dev"].zip (Session.resolveAll prodAndDev 1 {} ["Prod", "Dev"]).2) :=
  (resolve_independent_of_history prodAndDev 1).2.2 _ _ (.swap "Prod" "Dev" [])

end TemplateConditions
