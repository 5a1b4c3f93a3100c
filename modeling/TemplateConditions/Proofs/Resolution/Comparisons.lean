import TemplateConditions.Proofs.Condition.Influence
import TemplateConditions.Proofs.Resolution.Equations

/-!
# The comparisons of a template

The influence map of all conditions lists the comparisons that are declared, each once, and nothing
else.  Combinations pass on what stands below them, and one that had to be given up loses nothing,
since every comparison below it has an entry of its own.
-/

namespace TemplateConditions

variable {definitions : Definitions}

/-! ## Declared comparisons -/

namespace Definitions

/-- The comparison that a name is declared to be: its definition has `Fn::Equals` for its only key,
with an argument that is accepted. -/
def comparison? (definitions : Definitions) (name : String) : Option Clause :=
  match Ordered.find? name definitions with
  | some (.object [("Fn::Equals", argument)]) => (Clause.ofJson argument).toOption
  | _ => none

/-- The comparisons of all declared names, in their order. -/
def comparisons (definitions : Definitions) : List Clause :=
  (definitions.map Prod.fst).filterMap definitions.comparison?

theorem comparison?_eq_some_iff {name : String} {clause : Clause} :
    definitions.comparison? name = some clause ↔ definitions.Compares name clause := by
  unfold comparison? Compares
  constructor
  · intro h
    split at h
    · rename_i argument hfound
      refine ⟨argument, hfound, ?_⟩
      cases hread : Clause.ofJson argument with
      | error fault =>
        rw [hread] at h
        exact absurd h (by simp [Except.toOption])
      | ok other =>
        rw [hread] at h
        rw [Option.some.inj h]
    · exact absurd h (by simp)
  · rintro ⟨argument, hfound, hclause⟩
    rw [hfound]
    show (Clause.ofJson argument).toOption = some clause
    rw [hclause]
    rfl

theorem mem_comparisons {clause : Clause} :
    clause ∈ definitions.comparisons ↔ ∃ name, definitions.Compares name clause := by
  unfold comparisons
  rw [List.mem_filterMap]
  constructor
  · rintro ⟨name, _, hcomparison⟩
    exact ⟨name, comparison?_eq_some_iff.1 hcomparison⟩
  · rintro ⟨name, hcompares⟩
    have hname : name ∈ definitions.map Prod.fst :=
      (Ordered.find?_isSome name definitions).1 hcompares.declares
    exact ⟨name, hname, comparison?_eq_some_iff.2 hcompares⟩

end Definitions

/-! ## Comparisons of resolved trees -/

/-- A comparison that is declared survives on its own: a limit leaves room for at least one
condition. -/
theorem resolve_compares {limit : Nat} {name : String} {clause : Clause} (hlimit : 0 < limit)
    (h : definitions.Compares name clause) :
    (Condition.resolve definitions limit name).1.tree = .equals name clause := by
  apply (resolve_standsFor definitions limit name).unique
  have hheight : (Condition.equals name clause).height ≤ limit := by
    rw [Condition.height_equals]
    exact hlimit
  exact .inl ⟨rfl, Condition.unfolded_equals h, hheight⟩

/-- Every leaf of a resolved tree is declared as the comparison that it is. -/
theorem compares_of_leaf {limit : Nat} {name leaf : String} {clause : Clause}
    (h : (Condition.equals leaf clause).IsNode (Condition.resolve definitions limit name).1.tree) :
    definitions.Compares leaf clause := by
  have htree : (Condition.resolve definitions limit leaf).1.tree = .equals leaf clause :=
    resolve_node h
  have hcases := resolve_agrees definitions limit leaf
  rw [htree] at hcases
  rcases hcases with hagrees | hempty
  · exact hagrees
  · exact absurd hempty (by simp)

/-! ## The conditions of a template -/

theorem mem_foldl_merge {entries : List (String × Resolved)} {start : Influence}
    {clause : Clause} :
    clause ∈ (entries.foldl (fun map entry => map.merge entry.2.influence) start).clauses ↔
      clause ∈ start.clauses ∨ ∃ entry ∈ entries, clause ∈ entry.2.influence.clauses := by
  induction entries generalizing start with
  | nil => simp
  | cons entry rest ih =>
    rw [List.foldl_cons, ih, Influence.mem_merge, List.exists_mem_cons_iff, or_assoc]

theorem mem_conditions_ofDefinitions {limit : Nat} {entry : String × Resolved} :
    entry ∈ (ConditionSet.ofDefinitions definitions limit).conditions ↔
      ∃ name, definitions.declares name = true ∧
        (name, (Condition.resolve definitions limit name).1) = entry := by
  have hzip : (ConditionSet.ofDefinitions definitions limit).conditions =
      (definitions.map Prod.fst).map fun name =>
        (name, (Condition.resolve definitions limit name).1) := by
    rw [conditions_ofDefinitions, ← List.zip_map', List.map_id']
  rw [hzip, List.mem_map]
  simp only [Definitions.declares, Ordered.find?_isSome]

theorem mem_influence_ofDefinitions {limit : Nat} {clause : Clause} :
    clause ∈ (ConditionSet.ofDefinitions definitions limit).influence.clauses ↔
      ∃ name, definitions.declares name = true ∧
        clause ∈ (Condition.resolve definitions limit name).1.tree.influence.clauses := by
  rw [ConditionSet.influence, mem_foldl_merge, or_iff_right (Influence.not_mem_empty clause)]
  constructor
  · rintro ⟨entry, hentry, hmem⟩
    obtain ⟨name, hname, rfl⟩ := mem_conditions_ofDefinitions.1 hentry
    rw [Resolved.influence_eq] at hmem
    exact ⟨name, hname, hmem⟩
  · rintro ⟨name, hname, hmem⟩
    refine ⟨_, mem_conditions_ofDefinitions.2 ⟨name, hname, rfl⟩, ?_⟩
    rw [Resolved.influence_eq]
    exact hmem

/-- The influence map of all conditions is collected from the declared comparisons, whatever the
other definitions are: refused, on a cycle or too deep. -/
theorem influence_eq_comparisons (definitions : Definitions) (limit : Nat) (hlimit : 0 < limit) :
    (ConditionSet.ofDefinitions definitions limit).influence =
      .ofClauses definitions.comparisons := by
  apply Influence.ext_mem
  intro clause
  have hcollected : clause ∈ (Influence.ofClauses definitions.comparisons).clauses ↔
      clause ∈ definitions.comparisons := Ordered.Set.mem_ofList
  rw [mem_influence_ofDefinitions, hcollected, Definitions.mem_comparisons]
  constructor
  · rintro ⟨name, _, hmem⟩
    obtain ⟨leaf, hleaf⟩ := Condition.mem_influence_iff.1 hmem
    exact ⟨leaf, compares_of_leaf hleaf⟩
  · rintro ⟨name, hcompares⟩
    refine ⟨name, hcompares.declares, ?_⟩
    rw [resolve_compares hlimit hcompares]
    exact Condition.mem_influence_iff.2 ⟨name, .root _⟩

/-- The negation of a comparison is given up, and the comparison is listed all the same. -/
theorem influence_prodAndDev :
    (ConditionSet.ofDefinitions prodAndDev 1).influence =
      .ofClauses [⟨Token.ofName "Env", .literal "prod"⟩] :=
  influence_eq_comparisons prodAndDev 1 (by decide)

end TemplateConditions
