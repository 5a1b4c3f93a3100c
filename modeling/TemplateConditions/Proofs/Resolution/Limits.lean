import TemplateConditions.Proofs.Resolution.Merging

/-!
# Larger limits

A larger limit recovers conditions that were empty and leaves all others as they are.  From the
number of declared conditions on, nothing changes any more: conditions and findings are the same for
every such limit, and none of the findings is about the limit.
-/

namespace TemplateConditions

variable {definitions : Definitions} {limit : Nat}

/-! ## Trees -/

theorem isEmpty_or_eq_of_le {larger : Nat} (hle : limit ≤ larger) (name : String) :
    (Condition.resolve definitions limit name).1.tree.isEmpty = true ∨
      (Condition.resolve definitions limit name).1.tree =
        (Condition.resolve definitions larger name).1.tree := by
  rcases resolve_standsFor definitions limit name with ⟨hname, hunfolded, hheight⟩ | ⟨htree, _⟩
  · have hlarger := resolve_standsFor definitions larger name
    exact .inr (hlarger.unique (.inl ⟨hname, hunfolded, Nat.le_trans hheight hle⟩)).symm
  · rw [htree]
    exact .inl rfl

/-- With an ample limit, an empty condition is one for every limit or has no tree at all. -/
theorem Ample.exceeds {larger : Nat} (h : Ample definitions limit) {name : String}
    (hexceeds : definitions.Exceeds limit name) : definitions.Exceeds larger name := by
  rintro tree rfl hunfolded
  have hbeyond := hexceeds tree rfl hunfolded
  have hle := h.length_add_height_le (entered_top definitions tree.name) hunfolded
  rw [List.length_nil] at hle
  omega

theorem Ample.tree_eq {larger : Nat} (h : Ample definitions limit) (hle : limit ≤ larger)
    (name : String) :
    (Condition.resolve definitions limit name).1.tree =
      (Condition.resolve definitions larger name).1.tree := by
  have hlarger : (Condition.resolve definitions limit name).1.tree.StandsFor definitions larger
      name := by
    rcases resolve_standsFor definitions limit name with
      ⟨hname, hunfolded, hheight⟩ | ⟨htree, hexceeds⟩
    · exact .inl ⟨hname, hunfolded, Nat.le_trans hheight hle⟩
    · exact .inr ⟨htree, h.exceeds hexceeds⟩
  exact hlarger.unique (resolve_standsFor definitions larger name)

/-! ## Findings about the limit -/

/-- The finding, or the cause that it passes on, is that the limit was exceeded. -/
def Finding.BlamesLimit : Finding → Prop
  | .depthExceeded _ _ => True
  | .degraded _ cause => cause.BlamesLimit
  | _ => False

theorem Finding.BlamesLimit.aboutPath {finding : Finding} (h : finding.BlamesLimit) :
    finding.AboutPath := by
  cases finding with
  | depthExceeded | degraded => trivial
  | _ => exact absurd h not_false

theorem Condition.not_blamesLimit_of_mem_faults {tree : Condition} {finding : Finding}
    (h : finding ∈ tree.faults definitions) : ¬ finding.BlamesLimit :=
  fun hblames => not_aboutPath_of_mem_faults h hblames.aboutPath

/-- With an ample limit, nothing that comes up until a name is given up is about the limit. -/
theorem Abandons.not_blamesLimit {path : List String} {name : String} {found : List Finding}
    {cause : Finding} (h : Abandons definitions limit path name found cause)
    (hample : Ample definitions limit) (hentered : Entered definitions path name) :
    ¬ cause.BlamesLimit ∧ ∀ finding ∈ found, ¬ finding.BlamesLimit := by
  induction h with
  | circular hpath =>
    refine ⟨not_false, fun finding hfinding => ?_⟩
    rw [List.mem_singleton.1 hfinding]
    exact not_false
  | tooDeep hoff hroom hsmall => exact absurd hsmall (hample.not_tooSmall hentered hoff hroom)
  | under hoff hcombines _ _ ih =>
    obtain ⟨hcause, hfound⟩ := ih (hentered.below hoff
      ⟨_, _, hcombines, List.mem_append_right _ List.mem_cons_self⟩)
    refine ⟨hcause, fun finding hfinding => ?_⟩
    rw [List.mem_append, List.mem_append] at hfinding
    rcases hfinding with (hpassed | hbelow) | hblame
    · obtain ⟨tree, _, hfault⟩ := List.mem_flatMap.1 hpassed
      exact Condition.not_blamesLimit_of_mem_faults hfault
    · exact hfound finding hbelow
    · -- A condition that goes down passes on the cause.
      rw [Finding.blame] at hblame
      split at hblame
      · exact absurd hblame List.not_mem_nil
      · rw [List.mem_singleton.1 hblame]
        exact hcause

theorem Reports.not_blamesLimit {name : String} {found : List Finding}
    (h : Reports definitions limit name found) (hample : Ample definitions limit) :
    ∀ finding ∈ found, ¬ finding.BlamesLimit := by
  cases h with
  | unfolded => exact fun finding hfinding => Condition.not_blamesLimit_of_mem_faults hfinding
  | abandoned hgiven => exact (hgiven.not_blamesLimit hample (entered_top definitions name)).2

/-! ## Main result -/

/-- A condition that is not empty under a limit is the same under every larger one.  If the limit is
at least the number of declared conditions, a larger one changes neither the condition nor its
findings, and the limit is not blamed by any of them. -/
theorem resolve_of_larger_limit (definitions : Definitions) {limit larger : Nat}
    (hpos : 1 ≤ limit) (hle : limit ≤ larger) (name : String) :
    let resolved := Condition.resolve definitions limit name
    (resolved.1.tree.isEmpty = true ∨
      resolved.1 = (Condition.resolve definitions larger name).1) ∧
    (definitions.length ≤ limit →
      resolved = Condition.resolve definitions larger name ∧
      ∀ finding ∈ resolved.2, ¬ finding.BlamesLimit) := by
  intro resolved
  refine ⟨?_, fun henough => ?_⟩
  · rcases isEmpty_or_eq_of_le hle name with hempty | htree
    · exact .inl hempty
    · exact .inr (Resolved.ext_tree htree)
  · -- What a name reports does not depend on which ample limit it is.
    have hample : Ample definitions limit := ⟨hpos, henough⟩
    have hlarger : Ample definitions larger :=
      ⟨Nat.lt_of_lt_of_le hpos hle, Nat.le_trans henough hle⟩
    obtain ⟨found, hreports, hfindings⟩ := Session.exists_reports definitions limit name
    obtain ⟨found', hreports', hfindings'⟩ := Session.exists_reports definitions larger name
    obtain rfl := hreports.unique hreports' hample hlarger
    refine ⟨Prod.ext ?_ ?_, fun finding hfinding => ?_⟩
    · exact Resolved.ext_tree (hample.tree_eq hle name)
    · exact hfindings.trans hfindings'.symm
    · rw [hfindings, List.mem_eraseDups] at hfinding
      exact hreports.not_blamesLimit hample finding hfinding

/-- The limit of two is enough for two conditions that negate each other; a larger one goes around
the cycle no further. -/
theorem resolve_blue_of_larger_limit :
    (1 ≤ 2 ∧ 2 ≤ 64 ∧ blueAndGreen.length ≤ 2) ∧
      Condition.resolve blueAndGreen 2 "Blue" = Condition.resolve blueAndGreen 64 "Blue" :=
  ⟨by decide, ((resolve_of_larger_limit blueAndGreen (by decide) (by decide) "Blue").2
    (by decide)).1⟩

end TemplateConditions
