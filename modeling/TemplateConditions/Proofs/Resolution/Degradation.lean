import TemplateConditions.Proofs.Resolution.Cycles

/-!
# Degraded conditions

A condition is reported as degraded if something below it was given up.  Below a cycle that means
that it is empty.  At the depth limit it does not: the finding is about the path on which the name
was met, and the name may have its tree when it is resolved from the top.
-/

namespace TemplateConditions

variable {definitions : Definitions} {limit : Nat}

/-! ## What was given up below a name -/

/-- Only a combination has something below it. -/
theorem RaisedBelow.combines {path : List String} {name : String} {cause : Finding}
    (h : RaisedBelow definitions limit (name :: path) cause) :
    ∃ connective targets, definitions.Combines name connective targets := by
  obtain ⟨longer, lower, hsuffix, hraised⟩ := h
  have hmem : name ∈ longer := hsuffix.subset List.mem_cons_self
  have hreach : Relation.TransGen definitions.LiveChild name lower := by
    cases hraised with
    | circular hentered => exact hentered.leads.reaches hmem
    | tooDeep hentered => exact hentered.leads.reaches hmem
  obtain ⟨_, ⟨connective, targets, hcombines, _⟩, _⟩ := Relation.TransGen.head'_iff.1 hreach
  exact ⟨connective, targets, hcombines⟩

/-- Through the name runs a path of references to the deeper name that has more names than the
limit. -/
def OnLongPath (definitions : Definitions) (limit : Nat) (name lower : String) : Prop :=
  ∃ above below, lower ∈ below ∧ definitions.LivePath (above ++ name :: below) ∧
    limit < (above ++ name :: below).length

/-- Where the room below a path is too small, some path goes on until it has more names than the
limit. -/
theorem LeadsTo.exists_long {path : List String} {name : String} {room : Nat}
    (hleads : LeadsTo definitions path name) (hroom : path.length + room = limit)
    (hexceeds : definitions.Exceeds room name) :
    ∃ below, definitions.LivePath (path.reverse ++ name :: below) ∧
      limit < (path.reverse ++ name :: below).length := by
  have hbeyond := exceeds_iff.1 hexceeds
  unfold Definitions.PathsWithin at hbeyond
  push Not at hbeyond
  obtain ⟨below, hbelow, hlength⟩ := hbeyond
  refine ⟨below, List.isChain_split.2 ⟨hleads.live, hbelow⟩, ?_⟩
  rw [List.length_append, List.length_reverse]
  omega

theorem onLongPath_of_exceeds {path longer : List String} {name lower : String} {room : Nat}
    (hsuffix : name :: path <:+ longer) (hleads : LeadsTo definitions longer lower)
    (hroom : longer.length + room = limit) (hexceeds : definitions.Exceeds room lower) :
    OnLongPath definitions limit name lower := by
  obtain ⟨below, hlive, hlength⟩ := hleads.exists_long hroom hexceeds
  obtain ⟨between, rfl⟩ := hsuffix
  have hsplit : (between ++ name :: path).reverse ++ lower :: below =
      path.reverse ++ name :: (between.reverse ++ lower :: below) := by simp
  rw [hsplit] at hlive hlength
  exact ⟨path.reverse, _, List.mem_append_right _ List.mem_cons_self, hlive, hlength⟩

/-- The path starts at a name that is above the other two, and too high for the limit. -/
theorem OnLongPath.exists_top {name lower : String} (h : OnLongPath definitions limit name lower) :
    ∃ top, Relation.ReflTransGen definitions.LiveChild top name ∧
      Relation.TransGen definitions.LiveChild top lower ∧
        ¬ definitions.PathsWithin limit top := by
  obtain ⟨above, below, hlower, hlive, hlength⟩ := h
  have hreaches := hlive.reaches
  cases above with
  | nil =>
    refine ⟨name, .refl, (List.pairwise_cons.1 hreaches).1 lower hlower, fun hwithin => ?_⟩
    exact absurd (hwithin below hlive) (Nat.not_le_of_lt hlength)
  | cons top rest =>
    have hbelow := (List.pairwise_cons.1 hreaches).1
    have hname : Relation.TransGen definitions.LiveChild top name :=
      hbelow name (List.mem_append_right rest List.mem_cons_self)
    refine ⟨top, hname.to_reflTransGen, ?_, fun hwithin => ?_⟩
    · exact hbelow lower (List.mem_append_right rest (List.mem_cons_of_mem name hlower))
    · exact absurd (hwithin (rest ++ name :: below) hlive) (Nat.not_le_of_lt hlength)

theorem RaisedBelow.explains {path : List String} {name : String} {cause : Finding}
    (h : RaisedBelow definitions limit (name :: path) cause) :
    (∃ cycle, cause = .circularReference cycle ∧ definitions.Exceeds limit name) ∨
      ∃ lower, cause = .depthExceeded lower limit ∧ OnLongPath definitions limit name lower := by
  obtain ⟨longer, lower, hsuffix, hraised⟩ := h
  cases hraised with
  | circular hentered hmem =>
    -- From the name the cycle can be reached, and no limit is enough for that.
    have hreach := hentered.leads.reaches (hsuffix.subset List.mem_cons_self)
    have hcycle := hentered.leads.reaches hmem
    exact .inl ⟨_, rfl, exceeds_of_cycle hreach.to_reflTransGen hcycle limit⟩
  | tooDeep hentered hroom hexceeds =>
    exact .inr ⟨lower, rfl, onLongPath_of_exceeds hsuffix hentered.leads hroom hexceeds⟩

/-! ## The degraded condition itself -/

theorem isEmpty_resolve_of_exceeds {name : String} (h : definitions.Exceeds limit name) :
    (Condition.resolve definitions limit name).1.tree.isEmpty = true := by
  have hempty : (Condition.resolve definitions limit name).1.tree = .empty name :=
    Session.resolve_eq_empty Session.keeps_new h
  rw [hempty]
  rfl

/-- A combination is empty exactly if some path from it has more names than the limit. -/
theorem isEmpty_resolve_iff {name : String} {connective : Connective} {targets : List String}
    (h : definitions.Combines name connective targets) :
    (Condition.resolve definitions limit name).1.tree.isEmpty = true ↔
      ¬ definitions.PathsWithin limit name := by
  rw [← exceeds_iff]
  constructor
  · intro hempty
    rcases resolve_standsFor definitions limit name with ⟨hname, hunfolded, _⟩ | ⟨_, hexceeds⟩
    · -- The unfolded tree of a combination has the children that it names.
      have hcombines := h
      rw [← hname] at hcombines
      obtain ⟨htree, htargets⟩ := hunfolded.agrees.eq_combine hcombines
      have hallowed := h.allowed
      rw [← htargets, List.length_map] at hallowed
      rw [htree, Condition.isEmpty_combine hallowed] at hempty
      exact absurd hempty (by simp)
    · exact hexceeds
  · exact isEmpty_resolve_of_exceeds

/-! ## Main result -/

/-- Every finding about a degraded condition is about a declared combination.  If it blames a cycle,
that is empty.  If it blames the depth limit, the combination lies on a path of references that has
more names than the limit, and an empty condition stands above it or is the combination itself.
Whether the combination is empty is decided by the paths that start at it alone, so the finding may
be untrue of it. -/
theorem degraded_by_cycle_or_long_path (definitions : Definitions) (limit : Nat) {name : String}
    {cause : Finding}
    (h : .degraded name cause ∈ (ConditionSet.ofDefinitions definitions limit).findings) :
    ∃ condition, (ConditionSet.ofDefinitions definitions limit).get? name = some condition ∧
      (condition.tree.isEmpty = true ↔ ¬ definitions.PathsWithin limit name) ∧
      ((∃ cycle, cause = .circularReference cycle ∧ condition.tree.isEmpty = true) ∨
        ∃ lower, cause = .depthExceeded lower limit ∧
          OnLongPath definitions limit name lower ∧
            ∃ top above, Relation.ReflTransGen definitions.LiveChild top name ∧
              (ConditionSet.ofDefinitions definitions limit).get? top = some above ∧
                above.tree.isEmpty = true) := by
  have hrecorded : Recorded definitions limit (.degraded name cause) :=
    recorded_of_mem_resolveAll h
  obtain ⟨path, hraised⟩ := hrecorded.of_degraded
  obtain ⟨connective, targets, hcombines⟩ := hraised.combines
  refine ⟨_, get?_eq_some_iff.2 ⟨hcombines.declares, rfl⟩, isEmpty_resolve_iff hcombines, ?_⟩
  rcases hraised.explains with ⟨cycle, hcause, hexceeds⟩ | ⟨lower, hcause, hlong⟩
  · exact .inl ⟨cycle, hcause, isEmpty_resolve_of_exceeds hexceeds⟩
  · obtain ⟨top, habove, hreach, hbeyond⟩ := hlong.exists_top
    have hempty := isEmpty_resolve_of_exceeds (exceeds_iff.2 hbeyond)
    refine .inr ⟨lower, hcause, hlong, top, _, habove, ?_, hempty⟩
    exact get?_eq_some_iff.2 ⟨declares_of_reaches hreach, rfl⟩

/-- A comparison that is negated twice. -/
def nested : Definitions :=
  [("A", Definition.combinationToJson .not ["B"]), ("B", Definition.combinationToJson .not ["C"]),
    ("C", .object [("Fn::Equals", .array [.object [("Ref", .string "Env")], .string "prod"])])]

/-- On the way down from `A` the limit of two is exceeded at `C`, and both combinations above it are
reported. -/
theorem mem_findings_nested :
    .degraded "B" (.depthExceeded "C" 2) ∈ (ConditionSet.ofDefinitions nested 2).findings := by
  have hfirst : (Session.resolveAll nested 2 {} ["A"]).1 =
      ((({} : Session).report (.depthExceeded "C" 2)).report
        (.degraded "B" (.depthExceeded "C" 2))).report
          (.degraded "A" (.depthExceeded "C" 2)) := rfl
  have hmem : .degraded "B" (.depthExceeded "C" 2) ∈
      (Session.resolveAll nested 2 {} ["A"]).1.findings := by
    rw [hfirst]
    exact Session.mem_findings_report.2 (.inl (Session.mem_findings_report.2 (.inr rfl)))
  -- Resolving the other names adds to the findings.
  have hsteps := Session.resolveAll_steps nested 2 (Session.resolveAll nested 2 {} ["A"]).1
    ["B", "C"]
  exact hsteps.findings_prefix.subset hmem

/-- What the finding about `B` shows is the path from `A` to `C`, which is too long by one name. -/
theorem degraded_nested :
    .degraded "B" (.depthExceeded "C" 2) ∈ (ConditionSet.ofDefinitions nested 2).findings ∧
      OnLongPath nested 2 "B" "C" := by
  have hexplained := degraded_by_cycle_or_long_path nested 2 mem_findings_nested
  refine ⟨mem_findings_nested, ?_⟩
  obtain ⟨_, _, _, ⟨_, hcause, _⟩ | ⟨lower, hcause, hlong, _⟩⟩ := hexplained
  · exact absurd hcause (by simp)
  · obtain ⟨rfl, _⟩ := Finding.depthExceeded.inj hcause
    exact hlong

/-- The limit is enough for `B` itself, so it has its tree although it is reported as degraded. -/
theorem degraded_not_empty :
    .degraded "B" (.depthExceeded "C" 2) ∈ (ConditionSet.ofDefinitions nested 2).findings ∧
      ∃ condition, (ConditionSet.ofDefinitions nested 2).get? "B" = some condition ∧
        condition.tree.isEmpty = false := by
  have hresolved : (ConditionSet.ofDefinitions nested 2).get? "B" =
      some (Condition.resolve nested 2 "B").1 := get?_eq_some_iff.2 ⟨rfl, rfl⟩
  exact ⟨mem_findings_nested, _, hresolved, rfl⟩

end TemplateConditions
