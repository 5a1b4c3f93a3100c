import TemplateConditions.Proofs.Resolution.Cycles

/-!
# Bounds by the number of conditions

A path of references without a cycle visits every declared condition at most once.  So a limit that
is at least the number of declared conditions leaves room for every unfolded tree, wherever on a
path it is met.
-/

namespace TemplateConditions

variable {definitions : Definitions}

/-! ## Paths without repetition -/

theorem declares_of_reached {name target : String}
    (h : Relation.TransGen definitions.LiveChild name target) :
    definitions.declares target = true := by
  obtain ⟨_, _, _, _, hcombines, htarget⟩ := Relation.TransGen.tail'_iff.1 h
  exact hcombines.declared target htarget

/-- There are no more different declared names than definitions. -/
theorem length_le_of_declares {names : List String} (hdistinct : names.Nodup)
    (hdeclared : ∀ name ∈ names, definitions.declares name = true) :
    names.length ≤ definitions.length := by
  have hsubset : names ⊆ definitions.map Prod.fst := fun name hname =>
    (Ordered.find?_isSome name definitions).1 (hdeclared name hname)
  have hle := (hdistinct.subperm hsubset).length_le
  rw [List.length_map] at hle
  exact hle

/-- A path of references from a name above all cycles visits no name twice. -/
theorem Definitions.LivePath.distinct {name : String} {rest : List String}
    (h : definitions.LivePath (name :: rest))
    (hacyclic : ∀ target, Relation.ReflTransGen definitions.LiveChild name target →
      ¬ Relation.TransGen definitions.LiveChild target target) : (name :: rest).Nodup := by
  have hbelow := (List.pairwise_cons.1 h.reaches).1
  refine h.reaches.imp_of_mem fun hmem _ hreach heq => ?_
  subst heq
  rcases List.mem_cons.1 hmem with rfl | hrest
  · exact hacyclic _ .refl hreach
  · exact hacyclic _ (hbelow _ hrest).to_reflTransGen hreach

/-! ## The path to a name and the tree below it -/

/-- Every name on the path is declared, and so is the name itself if there is a path to it. -/
theorem Entered.declares {path : List String} {name upper : String}
    (h : Entered definitions path name) (hupper : upper ∈ path) :
    definitions.declares upper = true ∧ definitions.declares name = true :=
  ⟨declares_of_reaches (h.leads.reaches hupper), declares_of_reached (h.leads.reaches hupper)⟩

/-- A declared name off the path makes the path longer, and so the path was shorter than the number
of definitions. -/
theorem Entered.length_lt {path : List String} {name : String}
    (h : Entered definitions path name) (hoff : name ∉ path)
    (hdeclared : definitions.declares name = true) : path.length < definitions.length := by
  have hle : (name :: path).length ≤ definitions.length :=
    length_le_of_declares (List.nodup_cons.2 ⟨hoff, h.distinct⟩)
      (List.forall_mem_cons.2 ⟨hdeclared, fun upper hupper => (h.declares hupper).1⟩)
  rw [List.length_cons] at hle
  exact hle

/-- The names above and below a name are all different, if no cycle can be reached from it. -/
theorem Entered.length_add_le {path rest : List String} {name : String}
    (h : Entered definitions path name) (hdeclared : definitions.declares name = true)
    (hacyclic : ∀ target, Relation.ReflTransGen definitions.LiveChild name target →
      ¬ Relation.TransGen definitions.LiveChild target target)
    (hlive : definitions.LivePath (name :: rest)) :
    path.length + (name :: rest).length ≤ definitions.length := by
  have hbelow : ∀ lower ∈ name :: rest,
      Relation.ReflTransGen definitions.LiveChild name lower := by
    intro lower hlower
    rcases List.mem_cons.1 hlower with rfl | hrest
    · exact .refl
    · exact ((List.pairwise_cons.1 hlive.reaches).1 lower hrest).to_reflTransGen
  have hdistinct : (path ++ name :: rest).Nodup := by
    refine List.nodup_append.2 ⟨h.distinct, hlive.distinct hacyclic, ?_⟩
    -- A name on both sides would lie above the name and below it.
    rintro upper hupper _ hlower rfl
    exact hacyclic name .refl (.trans_right (hbelow upper hlower) (h.leads.reaches hupper))
  rw [← List.length_append]
  refine length_le_of_declares hdistinct fun other hother => ?_
  rcases List.mem_append.1 hother with hupper | hlower
  · exact (h.declares hupper).1
  · rcases Relation.reflTransGen_iff_eq_or_transGen.1 (hbelow other hlower) with rfl | hreach
    · exact hdeclared
    · exact declares_of_reached hreach

/-- The unfolded tree of a declared name has room below every path that leads to the name. -/
theorem Entered.length_add_height_le {path : List String} {tree : Condition}
    (h : Entered definitions path tree.name) (hunfolded : tree.Unfolded definitions)
    (hdeclared : definitions.declares tree.name = true) :
    path.length + tree.height ≤ definitions.length := by
  have hacyclic : ∀ target, Relation.ReflTransGen definitions.LiveChild tree.name target →
      ¬ Relation.TransGen definitions.LiveChild target target :=
    fun target hreach => hunfolded.acyclic_below hreach
  have hpath : path.length < definitions.length := by
    have hle := h.length_add_le hdeclared hacyclic (List.isChain_singleton tree.name)
    rw [List.length_singleton] at hle
    omega
  -- No path below the name is longer than what the path above it leaves.
  have hwithin : definitions.PathsWithin (definitions.length - path.length) tree.name := by
    intro rest hlive
    have hle := h.length_add_le hdeclared hacyclic hlive
    omega
  obtain ⟨other, hname, hother, hheight⟩ := Condition.pathsWithin_iff.1 hwithin
  rw [hother.unique hunfolded hname] at hheight
  omega

/-! ## Limits that are enough -/

/-- There is no room at all, or less than the unfolded tree of the name needs. -/
def TooSmall (definitions : Definitions) (room : Nat) (name : String) : Prop :=
  room = 0 ∨ ∃ tree : Condition, tree.name = name ∧ tree.Unfolded definitions ∧ room < tree.height

/-- The limit is positive and at least the number of declared conditions. -/
structure Ample (definitions : Definitions) (limit : Nat) : Prop where
  pos : 0 < limit
  enough : definitions.length ≤ limit

/-- An ample limit leaves room for the unfolded tree of every name. -/
theorem Ample.length_add_height_le {limit : Nat} (h : Ample definitions limit)
    {path : List String} {tree : Condition} (hentered : Entered definitions path tree.name)
    (hunfolded : tree.Unfolded definitions) : path.length + tree.height ≤ limit := by
  by_cases hdeclared : definitions.declares tree.name = true
  · exact Nat.le_trans (hentered.length_add_height_le hunfolded hdeclared) h.enough
  · -- A name that is not declared stands alone.
    have hnil : path = [] := List.eq_nil_iff_forall_not_mem.2 fun upper hupper =>
      hdeclared (hentered.declares hupper).2
    have hfound : Ordered.find? tree.name definitions = none := by
      rw [Definitions.declares, Bool.not_eq_true, Option.isSome_eq_false_iff,
        Option.isNone_iff_eq_none] at hdeclared
      exact hdeclared
    have hempty := hunfolded.agrees.eq_empty (Definitions.saysNothing_of_not_found hfound)
    rw [hnil, hempty, Condition.height_empty, List.length_nil]
    exact h.pos

/-- An ample limit leaves some room for a name that is not on its path. -/
theorem Ample.length_lt {limit : Nat} (h : Ample definitions limit) {path : List String}
    {name : String} (hentered : Entered definitions path name) (hoff : name ∉ path) :
    path.length < limit := by
  cases path with
  | nil => exact h.pos
  | cons upper rest =>
    have hdeclared := (hentered.declares List.mem_cons_self).2
    exact Nat.lt_of_lt_of_le (hentered.length_lt hoff hdeclared) h.enough

/-- What an ample limit leaves is not too small for any name that is not on its path. -/
theorem Ample.not_tooSmall {limit room : Nat} (h : Ample definitions limit) {path : List String}
    {name : String} (hentered : Entered definitions path name) (hoff : name ∉ path)
    (hroom : path.length + room = limit) : ¬ TooSmall definitions room name := by
  rintro (hnone | ⟨tree, rfl, hunfolded, hless⟩)
  · have hlt := h.length_lt hentered hoff
    omega
  · have hle := h.length_add_height_le hentered hunfolded
    omega

end TemplateConditions
