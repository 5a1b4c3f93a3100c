import TemplateConditions.Proofs.Condition.Scenarios
import TemplateConditions.Proofs.Ordered.Rearrangement

/-!
# Scenarios made from pairs

A scenario is collected from pairs of a token and a value, or made by assigning them one after the
other, to tokens or to names.  All ways end at the same scenario, in which a token has the value of
its last pair; pairs with different tokens may come in any order.
-/

namespace TemplateConditions

namespace Scenario

/-- Assignments make the scenario that is collected from their pairs. -/
theorem extend_empty (assignments : List Assignment) :
    Scenario.extend ∅ assignments = Ordered.Map.ofList (pairs assignments) := by
  refine Ordered.Map.ext_get? fun token => ?_
  rw [get?_extend, Ordered.Map.get?_ofList]
  exact Option.or_none

/-- Scenarios are equal if they give the same answer for every token. -/
theorem eq_iff_get? {scenario other : Scenario} :
    scenario = other ↔ ∀ token, scenario.get? token = other.get? token := by
  constructor
  · rintro rfl token
    rfl
  · exact Ordered.Map.ext_get?

end Scenario

/-- A scenario is known by the last pair of each token.  Collecting the pairs, assigning them to
their tokens from the empty scenario on, and making the assignments, by tokens or by names, that
they are the pairs of come to the same scenario.  It has for each token the value of the last pair,
no value for a token without a pair, and as many entries as there are different tokens.  If the
pairs are put in another order that keeps the order of the pairs of each token, the scenario is the
same again, and so are the truth value of every condition and the tokens that it leaves
unassigned. -/
theorem scenario_of_pairs (given : List (Token × Comparand)) :
    let scenario : Scenario := Ordered.Map.ofList given
    given.foldl (fun built pair => Scenario.assign built pair.1 pair.2) ∅ = scenario ∧
    (∀ assignments, Scenario.pairs assignments = given →
      Scenario.extend ∅ assignments = scenario ∧
      assignments.foldl (fun built assignment =>
        Scenario.assignName built assignment.target.name assignment.value) ∅ = scenario) ∧
    (∀ other : Scenario, other = scenario ↔ ∀ token, other.get? token = scenario.get? token) ∧
    (∀ token value, scenario.get? token = some value ↔
      ∃ front back, given = front ++ (token, value) :: back ∧ ∀ pair ∈ back, pair.1 ≠ token) ∧
    (∀ token, scenario.get? token = none ↔ ∀ pair ∈ given, pair.1 ≠ token) ∧
    scenario.size = (given.map Prod.fst).dedup.length ∧
    ∀ others, Ordered.Rearranges given others →
      given.Perm others ∧
      Ordered.Map.ofList others = scenario ∧
      ∀ condition : Resolved,
        condition.tree.holds (Ordered.Map.ofList others) = condition.tree.holds scenario ∧
        condition.unassigned (Ordered.Map.ofList others) = condition.unassigned scenario := by
  intro scenario
  refine ⟨rfl, ?_, ?_, ?_, ?_, ?_, ?_⟩
  · rintro assignments rfl
    have hextend : Scenario.extend ∅ assignments = scenario := Scenario.extend_empty assignments
    -- To assign to a name is to assign to its token.
    exact ⟨hextend, hextend⟩
  · intro other
    exact Scenario.eq_iff_get?
  · intro token value
    rw [Ordered.Map.get?_ofList]
    exact Ordered.last?_eq_some_iff_append
  · intro token
    rw [Ordered.Map.get?_ofList, ← Option.not_isSome_iff_eq_none, Ordered.last?_isSome]
    simp only [List.mem_map, not_exists, not_and, ne_eq]
  · exact Ordered.Map.size_ofList given
  · intro others hothers
    -- Conditions see the scenario only, so there is nothing more to show of them.
    have hsame : Ordered.Map.ofList others = scenario := (Ordered.Map.ofList_congr hothers).symm
    refine ⟨hothers.perm, hsame, fun condition => ?_⟩
    rw [hsame]
    exact ⟨rfl, rfl⟩

/-- Two assignments to one name, with one to another name between them: the later value stays, and
the assignment between them may come first. -/
theorem scenario_of_pairs_stage_twice :
    let stage := Token.ofName "Stage"
    let zone := Token.ofName "Zone"
    let test : Token × Comparand := (stage, .literal "test")
    let home : Token × Comparand := (zone, .literal "home")
    let prod : Token × Comparand := (stage, .literal "prod")
    let assignments : List Assignment :=
      [⟨⟨"Stage"⟩, test.2⟩, ⟨⟨"Zone"⟩, home.2⟩, ⟨⟨"Stage"⟩, prod.2⟩]
    let scenario := Scenario.extend ∅ assignments
    Scenario.pairs assignments = [test, home, prod] ∧
      Ordered.Rearranges [test, home, prod] [home, test, prod] ∧
      scenario.get? stage = some (.literal "prod") ∧
      scenario.size = 2 ∧
      scenario = Ordered.Map.ofList [home, test, prod] := by
  intro stage zone test home prod assignments scenario
  have hne : stage ≠ zone := by decide +kernel
  have hpairs : Scenario.pairs assignments = [test, home, prod] := rfl
  have hswap : test.1 ≠ home.1 := hne
  have hothers : Ordered.Rearranges [test, home, prod] [home, test, prod] :=
    Ordered.rearranges_swap hswap [] [prod]
  obtain ⟨-, hextend, -, hlast, -, hsize, hreorder⟩ := scenario_of_pairs [test, home, prod]
  have hscenario : scenario = Ordered.Map.ofList [test, home, prod] :=
    (hextend assignments hpairs).1
  refine ⟨hpairs, hothers, ?_, ?_, ?_⟩
  · rw [hscenario, hlast]
    exact ⟨[test, home], [], rfl, fun _ h => absurd h List.not_mem_nil⟩
  · rw [hscenario, hsize]
    -- The names themselves do not matter, only that they are different.
    have hkeys : ∀ a b : Token, a ≠ b → [a, b, a].dedup.length = 2 := by
      intro a b hab
      rw [List.dedup_cons_of_mem (by simp), List.dedup_cons_of_notMem (by simp [hab.symm])]
      rfl
    exact hkeys stage zone hne
  · rw [hscenario]
    exact (hreorder _ hothers).2.1.symm

end TemplateConditions
