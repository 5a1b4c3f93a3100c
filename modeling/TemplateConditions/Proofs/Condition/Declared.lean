import Mathlib.Data.List.Chain
import TemplateConditions.Condition.Resolution

/-!
# What declared names say

The written form of a comparison and of a combination, and that reading a definition accepts exactly
these forms.  On it rests what a name says among the declared ones: it compares, it combines names
that are all declared, or it says nothing.
-/

namespace TemplateConditions

namespace Definition

/-! ## Written forms -/

/-- The mapping by which one condition names another. -/
def targetToJson (target : String) : Json :=
  .object [("Condition", .string target)]

/-- A combination of conditions as it is written. -/
def combinationToJson (connective : Connective) (targets : List String) : Json :=
  .object [(connective.function, .array (targets.map targetToJson))]

theorem targetToJson_injective : Function.Injective targetToJson := by
  intro target other h
  simpa [targetToJson] using h

theorem targetOfJson_eq_ok_iff {json : Json} {target : String} :
    targetOfJson json = .ok target ↔ json = targetToJson target := by
  constructor
  · intro h
    unfold targetOfJson at h
    split at h
    · rw [Except.ok.injEq] at h
      rw [h, targetToJson]
    all_goals exact absurd h (by simp)
  · rintro rfl
    rfl

theorem targetsOfItems_cons (item : Json) (rest : List Json) :
    targetsOfItems (item :: rest) =
      match targetOfJson item with
      | .error fault => .error fault
      | .ok target =>
        match targetsOfItems rest with
        | .error fault => .error fault
        | .ok targets => .ok (target :: targets) := by
  rw [targetsOfItems]
  cases targetOfJson item with
  | error => rfl
  | ok target => cases targetsOfItems rest <;> rfl

theorem targetsOfItems_eq_ok_iff {items : List Json} {targets : List String} :
    targetsOfItems items = .ok targets ↔ items = targets.map targetToJson := by
  induction items generalizing targets with
  | nil =>
    rw [targetsOfItems, Except.ok.injEq, eq_comm (b := targets.map _), List.map_eq_nil_iff,
      eq_comm]
  | cons item rest ih =>
    rw [targetsOfItems_cons, eq_comm (b := targets.map _), List.map_eq_cons_iff]
    constructor
    · intro h
      split at h
      · exact absurd h (by simp)
      · rename_i target htarget
        split at h
        · exact absurd h (by simp)
        · rename_i others hothers
          rw [Except.ok.injEq] at h
          exact ⟨target, others, h.symm, (targetOfJson_eq_ok_iff.1 htarget).symm,
            (ih.1 hothers).symm⟩
    · rintro ⟨target, others, rfl, hitem, hrest⟩
      rw [targetOfJson_eq_ok_iff.2 hitem.symm, ih.2 hrest.symm]

theorem targetsOfJson_eq_ok_iff {connective : Connective} {json : Json} {targets : List String} :
    targetsOfJson connective json = .ok targets ↔
      json = .array (targets.map targetToJson) ∧ connective.allows targets.length = true := by
  constructor
  · intro h
    unfold targetsOfJson at h
    split at h
    · rename_i items
      split at h
      · rename_i hallows
        have hitems := targetsOfItems_eq_ok_iff.1 h
        subst hitems
        rw [List.length_map] at hallows
        exact ⟨rfl, hallows⟩
      · exact absurd h (by simp)
    · exact absurd h (by simp)
  · rintro ⟨rfl, hallows⟩
    rw [targetsOfJson, List.length_map, if_pos hallows]
    exact targetsOfItems_eq_ok_iff.2 rfl

/-! ## Reading definitions -/

theorem combinationOfJson_eq_ok_iff {connective : Connective} {argument : Json}
    {definition : Definition} :
    combinationOfJson connective argument = .ok definition ↔
      ∃ targets, definition = .combination connective targets ∧
        argument = .array (targets.map targetToJson) ∧
          connective.allows targets.length = true := by
  unfold combinationOfJson
  constructor
  · intro h
    split at h
    · rename_i targets htargets
      rw [Except.ok.injEq] at h
      exact ⟨targets, h.symm, targetsOfJson_eq_ok_iff.1 htargets⟩
    · exact absurd h (by simp)
  · rintro ⟨targets, rfl, hargument⟩
    rw [targetsOfJson_eq_ok_iff.2 hargument]

/-- Reading a function of a connective is reading its combination. -/
theorem ofFunction_function (connective : Connective) (argument : Json) :
    ofFunction connective.function argument = combinationOfJson connective argument := by
  cases connective <;> rfl

/-- What a function has to be for its definition to be accepted. -/
theorem ofFunction_eq_ok {function : String} {argument : Json} {definition : Definition}
    (h : ofFunction function argument = .ok definition) :
    (function = "Fn::Equals" ∧ ∃ clause, Clause.ofJson argument = .ok clause ∧
        definition = .comparison clause) ∨
      ∃ connective : Connective, function = connective.function ∧
        combinationOfJson connective argument = .ok definition := by
  unfold ofFunction at h
  split at h
  · rename_i hfunction
    split at h
    · rename_i clause hclause
      rw [Except.ok.injEq] at h
      exact .inl ⟨hfunction, clause, hclause, h.symm⟩
    · exact absurd h (by simp)
  · split at h
    · rename_i hfunction
      exact .inr ⟨.and, hfunction, h⟩
    · split at h
      · rename_i hfunction
        exact .inr ⟨.or, hfunction, h⟩
      · split at h
        · rename_i hfunction
          exact .inr ⟨.not, hfunction, h⟩
        · exact absurd h (by simp)

/-- An accepted definition is an object with one member, which names the function. -/
theorem ofJson_eq_ok {json : Json} {definition : Definition} (h : ofJson json = .ok definition) :
    ∃ function argument, json = .object [(function, argument)] ∧
      ofFunction function argument = .ok definition := by
  unfold ofJson at h
  split at h
  · exact ⟨_, _, rfl, h⟩
  all_goals exact absurd h (by simp)

theorem ofJson_eq_combination_iff {json : Json} {connective : Connective}
    {targets : List String} :
    ofJson json = .ok (.combination connective targets) ↔
      json = combinationToJson connective targets ∧ connective.allows targets.length = true := by
  constructor
  · intro h
    obtain ⟨function, argument, rfl, hfunction⟩ := ofJson_eq_ok h
    obtain ⟨_, clause, _, hcomparison⟩ | ⟨other, rfl, hcombination⟩ := ofFunction_eq_ok hfunction
    · exact absurd hcomparison (by simp)
    · obtain ⟨others, heq, rfl, hallows⟩ := combinationOfJson_eq_ok_iff.1 hcombination
      rw [Definition.combination.injEq] at heq
      obtain ⟨rfl, rfl⟩ := heq
      exact ⟨rfl, hallows⟩
  · rintro ⟨rfl, hallows⟩
    rw [combinationToJson, ofJson, ofFunction_function]
    exact combinationOfJson_eq_ok_iff.2 ⟨targets, rfl, rfl, hallows⟩

theorem ofJson_eq_comparison_iff {json : Json} {clause : Clause} :
    ofJson json = .ok (.comparison clause) ↔
      ∃ argument, json = .object [("Fn::Equals", argument)] ∧
        Clause.ofJson argument = .ok clause := by
  constructor
  · intro h
    obtain ⟨function, argument, rfl, hfunction⟩ := ofJson_eq_ok h
    obtain ⟨rfl, other, hclause, heq⟩ | ⟨connective, rfl, hcombination⟩ :=
      ofFunction_eq_ok hfunction
    · rw [Definition.comparison.injEq] at heq
      exact ⟨argument, rfl, heq ▸ hclause⟩
    · obtain ⟨_, heq, _⟩ := combinationOfJson_eq_ok_iff.1 hcombination
      exact absurd heq (by simp)
  · rintro ⟨argument, rfl, hclause⟩
    rw [ofJson, ofFunction, if_pos rfl, hclause]

end Definition

namespace Definitions

open Definition

/-! ## Names -/

/-- The name is declared as a comparison, and `clause` is what it compares. -/
def Compares (definitions : Definitions) (name : String) (clause : Clause) : Prop :=
  ∃ argument, Ordered.find? name definitions = some (.object [("Fn::Equals", argument)]) ∧
    Clause.ofJson argument = .ok clause

/-- The name is declared as a combination of as many targets as its connective takes, and all of
them are declared. -/
structure Combines (definitions : Definitions) (name : String) (connective : Connective)
    (targets : List String) : Prop where
  written : Ordered.find? name definitions = some (combinationToJson connective targets)
  allowed : connective.allows targets.length = true
  declared : ∀ target ∈ targets, definitions.declares target = true

variable {definitions : Definitions} {name : String}

theorem Compares.read {clause : Clause} (h : definitions.Compares name clause) :
    ∃ definition, Ordered.find? name definitions = some definition ∧
      Definition.ofJson definition = .ok (.comparison clause) := by
  obtain ⟨argument, hfound, hclause⟩ := h
  exact ⟨_, hfound, ofJson_eq_comparison_iff.2 ⟨argument, rfl, hclause⟩⟩

theorem Combines.read {connective : Connective} {targets : List String}
    (h : definitions.Combines name connective targets) :
    ∃ definition, Ordered.find? name definitions = some definition ∧
      Definition.ofJson definition = .ok (.combination connective targets) :=
  ⟨_, h.written, ofJson_eq_combination_iff.2 ⟨rfl, h.allowed⟩⟩

theorem Compares.declares {clause : Clause} (h : definitions.Compares name clause) :
    definitions.declares name = true := by
  obtain ⟨_, hfound, _⟩ := h
  rw [Definitions.declares, hfound, Option.isSome_some]

theorem Combines.declares {connective : Connective} {targets : List String}
    (h : definitions.Combines name connective targets) :
    definitions.declares name = true := by
  rw [Definitions.declares, h.written, Option.isSome_some]

theorem compares_of_read {definition : Json} {clause : Clause}
    (hfound : Ordered.find? name definitions = some definition)
    (hread : Definition.ofJson definition = .ok (.comparison clause)) :
    definitions.Compares name clause := by
  obtain ⟨argument, rfl, hclause⟩ := ofJson_eq_comparison_iff.1 hread
  exact ⟨argument, hfound, hclause⟩

/-- A name has one definition, and that is read in one way. -/
theorem read_unique {definition other : Json} {a b : Definition}
    (hfound : Ordered.find? name definitions = some definition)
    (ha : Definition.ofJson definition = .ok a)
    (hother : Ordered.find? name definitions = some other)
    (hb : Definition.ofJson other = .ok b) : a = b := by
  rw [hfound, Option.some.injEq] at hother
  rw [← hother, ha, Except.ok.injEq] at hb
  exact hb

theorem Compares.unique {clause other : Clause} (h : definitions.Compares name clause)
    (h' : definitions.Compares name other) : clause = other := by
  obtain ⟨_, hfound, hread⟩ := h.read
  obtain ⟨_, hfound', hread'⟩ := h'.read
  exact Definition.comparison.inj (read_unique hfound hread hfound' hread')

theorem Combines.unique {connective other : Connective} {targets others : List String}
    (h : definitions.Combines name connective targets)
    (h' : definitions.Combines name other others) : connective = other ∧ targets = others := by
  obtain ⟨_, hfound, hread⟩ := h.read
  obtain ⟨_, hfound', hread'⟩ := h'.read
  exact Definition.combination.inj (read_unique hfound hread hfound' hread')

theorem Compares.not_combines {clause : Clause} {connective : Connective}
    {targets : List String} (h : definitions.Compares name clause) :
    ¬ definitions.Combines name connective targets := by
  intro h'
  obtain ⟨_, hfound, hread⟩ := h.read
  obtain ⟨_, hfound', hread'⟩ := h'.read
  exact absurd (read_unique hfound hread hfound' hread') (by simp)

/-- The name says nothing: it neither compares nor combines. -/
def SaysNothing (definitions : Definitions) (name : String) : Prop :=
  (∀ clause, ¬ definitions.Compares name clause) ∧
    ∀ connective targets, ¬ definitions.Combines name connective targets

/-- Those of the targets that are not declared. -/
def missing (definitions : Definitions) (targets : List String) : List String :=
  targets.filter fun target => !definitions.declares target

theorem missing_eq_nil_iff {targets : List String} :
    definitions.missing targets = [] ↔ ∀ target ∈ targets, definitions.declares target = true := by
  rw [missing, List.filter_eq_nil_iff]
  simp

/-- A name says nothing if whatever is read of it lacks a declared target. -/
theorem saysNothing_of_read
    (h : ∀ definition read, Ordered.find? name definitions = some definition →
      Definition.ofJson definition = .ok read →
        ∃ connective targets, read = .combination connective targets ∧
          definitions.missing targets ≠ []) : definitions.SaysNothing name := by
  constructor
  · intro clause hcompares
    obtain ⟨definition, hfound, hread⟩ := hcompares.read
    obtain ⟨_, _, hcombination, _⟩ := h definition _ hfound hread
    exact absurd hcombination (by simp)
  · intro connective targets hcombines
    obtain ⟨definition, hfound, hread⟩ := hcombines.read
    obtain ⟨_, _, hcombination, hmissing⟩ := h definition _ hfound hread
    obtain ⟨rfl, rfl⟩ := Definition.combination.inj hcombination
    exact hmissing (missing_eq_nil_iff.2 hcombines.declared)

theorem saysNothing_of_not_found (hfound : Ordered.find? name definitions = none) :
    definitions.SaysNothing name :=
  saysNothing_of_read fun _ _ hsome _ => absurd (hfound.symm.trans hsome) (by simp)

theorem saysNothing_of_error {definition : Json} {fault : Definition.Fault}
    (hfound : Ordered.find? name definitions = some definition)
    (hread : Definition.ofJson definition = .error fault) : definitions.SaysNothing name := by
  refine saysNothing_of_read fun other read hother hok => ?_
  rw [hfound, Option.some.injEq] at hother
  rw [← hother, hread] at hok
  exact absurd hok (by simp)

theorem saysNothing_of_missing {connective : Connective} {targets : List String}
    (hfound : Ordered.find? name definitions = some (combinationToJson connective targets))
    (hallowed : connective.allows targets.length = true)
    (hmissing : definitions.missing targets ≠ []) : definitions.SaysNothing name := by
  refine saysNothing_of_read fun other read hother hok => ⟨connective, targets, ?_, hmissing⟩
  have hread := ofJson_eq_combination_iff.2 ⟨rfl, hallowed⟩
  exact read_unique hother hok hfound hread

/-- A name compares, combines or says nothing. -/
theorem meaning_cases (definitions : Definitions) (name : String) :
    (∃ clause, definitions.Compares name clause) ∨
      (∃ connective targets, definitions.Combines name connective targets) ∨
        definitions.SaysNothing name := by
  by_cases hcompares : ∃ clause, definitions.Compares name clause
  · exact .inl hcompares
  by_cases hcombines : ∃ connective targets, definitions.Combines name connective targets
  · exact .inr (.inl hcombines)
  · exact .inr (.inr ⟨fun clause h => hcompares ⟨clause, h⟩,
      fun connective targets h => hcombines ⟨connective, targets, h⟩⟩)

/-! ## References between names -/

/-- The parent combines the child, among other names that are all declared. -/
def LiveChild (definitions : Definitions) (parent child : String) : Prop :=
  ∃ connective targets, definitions.Combines parent connective targets ∧ child ∈ targets

/-- Each name on the path combines the next one. -/
def LivePath (definitions : Definitions) (path : List String) : Prop :=
  path.IsChain definitions.LiveChild

/-- No path that starts at the name visits more names than the limit, however often it visits one of
them. -/
def PathsWithin (definitions : Definitions) (limit : Nat) (name : String) : Prop :=
  ∀ rest, definitions.LivePath (name :: rest) → (name :: rest).length ≤ limit

end Definitions

end TemplateConditions
