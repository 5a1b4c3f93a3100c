import TemplateConditions.Condition.Resolved
import TemplateConditions.Proofs.Condition.Nodes
import TemplateConditions.Proofs.Ordered.Lookup
import TemplateConditions.Proofs.Ordered.Membership

/-!
# What influence maps list

An influence map lists a comparand under a token exactly if it has that comparison, and the map of a
tree has the comparisons of its leaves.  So two scenarios that no entry of the map tells apart give
the tree the same truth value.
-/

namespace TemplateConditions

/-! ## Subjects in ascending clauses -/

namespace Clause

theorem compare_eq (a b : Clause) :
    compare a b = (compare a.subject b.subject).then (compare a.comparand b.comparand) := rfl

theorem subject_le_of_lt {a b : Clause} (h : compare a b = .lt) :
    (compare a.subject b.subject).isLE = true := by
  rw [compare_eq, Ordering.then_eq_lt] at h
  rcases h with h | ⟨h, _⟩
  · rw [h]
    rfl
  · rw [h]
    rfl

theorem subject_lt_of_ne {a b : Clause} (h : compare a b = .lt) (hne : a.subject ≠ b.subject) :
    compare a.subject b.subject = .lt := by
  rw [compare_eq, Ordering.then_eq_lt] at h
  rcases h with h | ⟨h, _⟩
  · exact h
  · exact absurd (Std.LawfulEqOrd.eq_of_compare h) hne

/-- A subject that the next clause does not share is met no more. -/
theorem subject_ne_of_next {first next : Clause} {rest : List Clause}
    (h : (first :: next :: rest).Pairwise fun a b => compare a b = .lt)
    (hne : first.subject ≠ next.subject) :
    ∀ clause ∈ next :: rest, clause.subject ≠ first.subject := by
  intro clause hclause heq
  obtain ⟨hfirst, hrest⟩ := List.pairwise_cons.1 h
  have hnext : compare first.subject next.subject = .lt :=
    subject_lt_of_ne (hfirst next List.mem_cons_self) hne
  have hle : (compare next.subject clause.subject).isLE = true := by
    rcases List.mem_cons.1 hclause with rfl | hmem
    · rw [Std.compare_self]
      rfl
    · exact subject_le_of_lt ((List.pairwise_cons.1 hrest).1 clause hmem)
  have hlt := Std.TransCmp.lt_of_lt_of_isLE hnext hle
  rw [heq, Std.compare_self] at hlt
  exact absurd hlt (by decide)

end Clause

/-! ## Entries of a map -/

namespace Influence

/-- The comparands that clauses have for a token, in their order. -/
def comparandsOf (token : Token) (clauses : List Clause) : List Comparand :=
  (clauses.filter fun clause => clause.subject = token).map Clause.comparand

theorem mem_comparandsOf {token : Token} {value : Comparand} {clauses : List Clause} :
    value ∈ comparandsOf token clauses ↔ ⟨token, value⟩ ∈ clauses := by
  unfold comparandsOf
  rw [List.mem_map]
  constructor
  · rintro ⟨clause, hclause, rfl⟩
    obtain ⟨hmem, hsubject⟩ := List.mem_filter.1 hclause
    rw [← of_decide_eq_true hsubject]
    exact hmem
  · intro hmem
    exact ⟨_, List.mem_filter.2 ⟨hmem, decide_eq_true rfl⟩, rfl⟩

theorem comparandsOf_cons_self (clause : Clause) (rest : List Clause) :
    comparandsOf clause.subject (clause :: rest) =
      clause.comparand :: comparandsOf clause.subject rest := by
  rw [comparandsOf, List.filter_cons_of_pos (by simp), List.map_cons, comparandsOf]

theorem comparandsOf_cons_of_ne {token : Token} {clause : Clause} (h : clause.subject ≠ token)
    (rest : List Clause) : comparandsOf token (clause :: rest) = comparandsOf token rest := by
  rw [comparandsOf, List.filter_cons_of_neg (by simpa using h), comparandsOf]

theorem comparandsOf_eq_nil {token : Token} {clauses : List Clause}
    (h : ∀ clause ∈ clauses, clause.subject ≠ token) : comparandsOf token clauses = [] := by
  rw [comparandsOf, List.map_eq_nil_iff, List.filter_eq_nil_iff]
  intro clause hclause
  simpa using h clause hclause

/-- The first group is that of the first clause. -/
theorem group_cons (clause : Clause) (rest : List Clause) :
    ∃ values groups, group (clause :: rest) = (clause.subject, values) :: groups := by
  rw [group]
  split
  · exact ⟨_, _, rfl⟩
  · split
    · rename_i heq
      rw [heq]
      exact ⟨_, _, rfl⟩
    · exact ⟨_, _, rfl⟩

/-- A clause joins the first group of those behind it, or opens a group of its own. -/
theorem group_cons_cons {next : Clause} {rest : List Clause} {values : List Comparand}
    {groups : List (Token × List Comparand)}
    (h : group (next :: rest) = (next.subject, values) :: groups) (clause : Clause) :
    group (clause :: next :: rest) =
      if clause.subject = next.subject then (next.subject, clause.comparand :: values) :: groups
      else (clause.subject, [clause.comparand]) :: (next.subject, values) :: groups := by
  rw [group, h]

/-- The comparands that the groups hold under a token, if they have the token. -/
def valuesAt (token : Token) (groups : List (Token × List Comparand)) :
    Option (List Comparand) :=
  (groups.find? fun entry => entry.1 = token).map Prod.snd

theorem valuesAt_cons_self (token : Token) (values : List Comparand)
    (groups : List (Token × List Comparand)) :
    valuesAt token ((token, values) :: groups) = some values := by
  rw [valuesAt, List.find?_cons_of_pos (by simp), Option.map_some]

theorem valuesAt_cons_of_ne {token other : Token} (h : other ≠ token) (values : List Comparand)
    (groups : List (Token × List Comparand)) :
    valuesAt token ((other, values) :: groups) = valuesAt token groups := by
  rw [valuesAt, List.find?_cons_of_neg (by simpa using h), valuesAt]

/-- Ascending clauses with one subject are neighbours, so that grouping neighbours gathers all of
them. -/
theorem valuesAt_group {clauses : List Clause}
    (h : clauses.Pairwise fun a b => compare a b = .lt) (token : Token) :
    valuesAt token (group clauses) =
      if comparandsOf token clauses = [] then none else some (comparandsOf token clauses) := by
  induction clauses with
  | nil => rfl
  | cons clause rest ih =>
    have hrest := ih (List.pairwise_cons.1 h).2
    cases rest with
    | nil =>
      rw [group, group]
      by_cases hsubject : clause.subject = token
      · subst hsubject
        rw [valuesAt_cons_self, comparandsOf_cons_self]
        rfl
      · rw [valuesAt_cons_of_ne hsubject, comparandsOf_cons_of_ne hsubject]
        rfl
    | cons next rest =>
      obtain ⟨values, groups, hgroup⟩ := group_cons next rest
      have hstep := group_cons_cons hgroup clause
      rw [hgroup] at hrest
      by_cases hnext : clause.subject = next.subject
      · -- The clause joins the first group.
        rw [hstep, if_pos hnext]
        by_cases hsubject : next.subject = token
        · subst hsubject
          rw [valuesAt_cons_self, comparandsOf_cons_self, if_neg (List.cons_ne_nil _ _),
            Option.some.injEq] at hrest
          rw [valuesAt_cons_self, ← hnext, comparandsOf_cons_self, hnext, comparandsOf_cons_self,
            ← hrest, if_neg (List.cons_ne_nil _ _)]
        · rw [valuesAt_cons_of_ne hsubject] at hrest ⊢
          rw [comparandsOf_cons_of_ne (hnext ▸ hsubject), hrest]
      · -- The clause opens a group, and no later clause has its subject.
        rw [hstep, if_neg hnext]
        by_cases hsubject : clause.subject = token
        · subst hsubject
          have hnone : comparandsOf clause.subject (next :: rest) = [] :=
            comparandsOf_eq_nil (Clause.subject_ne_of_next h hnext)
          rw [valuesAt_cons_self, comparandsOf_cons_self, hnone, if_neg (List.cons_ne_nil _ _)]
        · rw [valuesAt_cons_of_ne hsubject, comparandsOf_cons_of_ne hsubject, hrest]

theorem get?_eq (map : Influence) (token : Token) :
    map.get? token =
      if comparandsOf token map.clauses.elements = [] then none
      else some (comparandsOf token map.clauses.elements) :=
  valuesAt_group map.clauses.ascending token

/-- A comparand is listed under a token exactly if the map has that comparison. -/
theorem exists_get?_iff {map : Influence} {token : Token} {value : Comparand} :
    (∃ values, map.get? token = some values ∧ value ∈ values) ↔
      (⟨token, value⟩ : Clause) ∈ map.clauses := by
  have hmem : (⟨token, value⟩ : Clause) ∈ map.clauses ↔
      value ∈ comparandsOf token map.clauses.elements := mem_comparandsOf.symm
  rw [get?_eq, hmem]
  by_cases hnil : comparandsOf token map.clauses.elements = []
  · rw [if_pos hnil, hnil]
    simp
  · rw [if_neg hnil]
    simp

/-! ## Operations -/

@[simp] theorem not_mem_empty (clause : Clause) : clause ∉ empty.clauses := List.not_mem_nil

@[simp] theorem mem_single {clause other : Clause} :
    other ∈ (single clause).clauses ↔ other = clause := by
  rw [single, Ordered.Set.mem_ofList, List.mem_singleton]

@[simp] theorem mem_merge {a b : Influence} {clause : Clause} :
    clause ∈ (a.merge b).clauses ↔ clause ∈ a.clauses ∨ clause ∈ b.clauses :=
  Ordered.Set.mem_union

/-- A map is known by its comparisons. -/
theorem ext_mem {a b : Influence} (h : ∀ clause, clause ∈ a.clauses ↔ clause ∈ b.clauses) :
    a = b := by
  have hclauses : a.clauses = b.clauses := Ordered.Set.ext_mem h
  cases a
  cases b
  cases hclauses
  rfl

end Influence

/-! ## Trees -/

namespace Condition

theorem mem_mergedInfluence {children : List Condition} {clause : Clause} :
    clause ∈ (mergedInfluence children).clauses ↔
      ∃ child ∈ children, clause ∈ child.influence.clauses := by
  induction children with
  | nil =>
    rw [mergedInfluence]
    simp
  | cons child rest ih => rw [mergedInfluence, Influence.mem_merge, ih, List.exists_mem_cons_iff]

/-- The map of a tree has the comparison of its root and those of its children. -/
theorem mem_influence_children {tree : Condition} {clause : Clause} :
    clause ∈ tree.influence.clauses ↔
      tree = .equals tree.name clause ∨ ∃ child ∈ tree.children, clause ∈ child.influence.clauses := by
  cases tree with
  | equals name other =>
    rw [influence, Influence.mem_single]
    constructor
    · rintro rfl
      exact .inl rfl
    · rintro (hroot | ⟨_, hchild, _⟩)
      · exact (Condition.equals.inj hroot).2.symm
      · exact absurd hchild List.not_mem_nil
  | and | or =>
    rw [influence, mem_mergedInfluence]
    simp [children]
  | not | empty =>
    rw [influence]
    simp [children]

/-- The map of a tree has exactly the comparisons of its leaves. -/
theorem mem_influence_iff {tree : Condition} {clause : Clause} :
    clause ∈ tree.influence.clauses ↔ ∃ name, (Condition.equals name clause).IsNode tree := by
  induction tree using induction_on_children with
  | step tree ih =>
    rw [mem_influence_children]
    constructor
    · rintro (hroot | ⟨child, hchild, hmem⟩)
      · exact ⟨tree.name, hroot ▸ .root tree⟩
      · obtain ⟨name, hleaf⟩ := (ih child hchild).1 hmem
        exact ⟨name, .under hchild hleaf⟩
    · rintro ⟨name, hleaf⟩
      obtain rfl | ⟨child, hchild, hleaf⟩ := isNode_iff.1 hleaf
      · exact .inl rfl
      · exact .inr ⟨child, hchild, (ih child hchild).2 ⟨name, hleaf⟩⟩

/-! ## Truth values -/

variable {a b : Scenario}

theorem allHold_congr {children : List Condition}
    (h : ∀ child ∈ children, child.holds a = child.holds b) :
    allHold a children = allHold b children := by
  rw [allHold_eq, allHold_eq, Bool.eq_iff_iff, List.all_eq_true, List.all_eq_true]
  exact forall₂_congr fun child hchild => by rw [h child hchild]

theorem anyHolds_congr {children : List Condition}
    (h : ∀ child ∈ children, child.holds a = child.holds b) :
    anyHolds a children = anyHolds b children := by
  rw [anyHolds_eq, anyHolds_eq, Bool.eq_iff_iff, List.any_eq_true, List.any_eq_true]
  exact exists_congr fun child => and_congr_right fun hchild => by rw [h child hchild]

/-- Scenarios that agree on the comparisons of a tree give it the same truth value. -/
theorem holds_congr {tree : Condition}
    (h : ∀ clause ∈ tree.influence.clauses, clause.holds a = clause.holds b) :
    tree.holds a = tree.holds b := by
  induction tree using induction_on_children with
  | step tree ih =>
    -- Each child has only comparisons that the tree has.
    have hchildren : ∀ child ∈ tree.children, child.holds a = child.holds b := by
      intro child hchild
      apply ih child hchild
      intro clause hclause
      exact h clause (mem_influence_children.2 (.inr ⟨child, hchild, hclause⟩))
    cases tree with
    | equals name clause =>
      rw [holds, holds]
      exact h clause (mem_influence_children.2 (.inl rfl))
    | and name children =>
      rw [holds, holds]
      exact allHold_congr hchildren
    | or name children =>
      rw [holds, holds]
      exact anyHolds_congr hchildren
    | not name child =>
      have hchild : child.holds a = child.holds b := hchildren child List.mem_cons_self
      rw [holds, holds, hchild]
    | empty name => rw [holds, holds]

end Condition

theorem Clause.holds_eq_decide (scenario : Scenario) (clause : Clause) :
    clause.holds scenario = decide (scenario.get? clause.subject = some clause.comparand) := rfl

theorem Scenario.get?_assign (scenario : Scenario) (token other : Token) (value : Comparand) :
    (scenario.assign token value).get? other =
      if other = token then some value else scenario.get? other :=
  Ordered.find?_insert token other value scenario.entries

/-- Two scenarios that give each listed comparand to its token alike give the condition the same
truth value.  So a token that is not listed may get any value, and it does not matter which of the
values that are not listed for it a token has. -/
theorem holds_determined_by_influence (condition : Resolved) :
    (∀ a b : Scenario,
      (∀ token values, condition.influence.get? token = some values →
        ∀ value ∈ values, (a.get? token = some value ↔ b.get? token = some value)) →
      condition.tree.holds a = condition.tree.holds b) ∧
    (∀ (scenario : Scenario) (token : Token) (value : Comparand),
      condition.influence.get? token = none →
        condition.tree.holds (scenario.assign token value) = condition.tree.holds scenario) ∧
    ∀ (scenario : Scenario) (token : Token) (value other : Comparand),
      (∀ values, condition.influence.get? token = some values → value ∉ values ∧ other ∉ values) →
        condition.tree.holds (scenario.assign token value) =
          condition.tree.holds (scenario.assign token other) := by
  have hagree : ∀ a b : Scenario,
      (∀ token values, condition.influence.get? token = some values →
        ∀ value ∈ values, (a.get? token = some value ↔ b.get? token = some value)) →
      condition.tree.holds a = condition.tree.holds b := by
    intro a b h
    apply Condition.holds_congr
    intro clause hclause
    rw [← condition.influence_eq] at hclause
    obtain ⟨values, hvalues, hmem⟩ := Influence.exists_get?_iff.2 hclause
    rw [Clause.holds_eq_decide, Clause.holds_eq_decide, decide_eq_decide]
    exact h clause.subject values hvalues clause.comparand hmem
  refine ⟨hagree, ?_, ?_⟩
  · intro scenario token value hnone
    apply hagree
    intro listed values hvalues _ _
    have hne : listed ≠ token := by
      rintro rfl
      rw [hnone] at hvalues
      exact absurd hvalues (by simp)
    rw [Scenario.get?_assign, if_neg hne]
  · intro scenario token value other hunlisted
    apply hagree
    intro listed values hvalues read hread
    rw [Scenario.get?_assign, Scenario.get?_assign]
    by_cases heq : listed = token
    · -- Neither of the two values is the listed one.
      subst heq
      have hnot := hunlisted values hvalues
      rw [if_pos rfl, if_pos rfl, Option.some.injEq, Option.some.injEq]
      constructor
      · rintro rfl
        exact absurd hread hnot.1
      · rintro rfl
        exact absurd hread hnot.2
    · rw [if_neg heq, if_neg heq]

/-- A condition that asks for one value cannot tell two others from each other. -/
theorem holds_dev_eq_test :
    let stage : Token := ⟨"stage"⟩
    let condition := Resolved.combine "Dev" .not [.equals "Prod" ⟨stage, .literal "prod"⟩]
    condition.tree.holds ((∅ : Scenario).assign stage (.literal "dev")) =
      condition.tree.holds ((∅ : Scenario).assign stage (.literal "test")) := by
  intro stage condition
  apply (holds_determined_by_influence condition).1
  intro token values hvalues value hvalue
  have hlisted := Influence.exists_get?_iff.1 ⟨values, hvalues, hvalue⟩
  have honly : (⟨token, value⟩ : Clause) = ⟨stage, .literal "prod"⟩ := Influence.mem_single.1 hlisted
  cases honly
  decide

end TemplateConditions
