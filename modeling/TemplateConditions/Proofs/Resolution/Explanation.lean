import TemplateConditions.Proofs.Resolution.Trees

/-!
# Explained conditions

No condition becomes empty without a finding that says why, and no finding is recorded unless a
condition became empty.
-/

namespace TemplateConditions

variable {definitions : Definitions}

/-! ## What findings concern -/

namespace Finding

theorem concerns_ofFault (name : String) (fault : Definition.Fault) :
    (ofFault name fault).concerns name = true := by
  cases fault <;> exact beq_self_eq_true name

theorem concerns_degraded (name : String) (cause : Finding) :
    (degraded name cause).concerns name = true :=
  beq_self_eq_true name

end Finding

/-- Turning a cycle keeps all of its names. -/
theorem mem_closedFromLeast {name : String} {cycle : List String} (h : name ∈ cycle) :
    name ∈ closedFromLeast cycle := by
  cases cycle with
  | nil => exact absurd h List.not_mem_nil
  | cons first rest =>
    rw [← List.takeWhile_append_dropWhile (p := (· ≠ leastName first rest)) (l := first :: rest),
      List.mem_append] at h
    exact List.mem_append_left _ (List.mem_append.2 h.symm)

theorem concerns_cycleThrough (name : String) (path : List String) :
    (Finding.circularReference (cycleThrough name path)).concerns name = true :=
  List.contains_iff_mem.2 (mem_closedFromLeast List.mem_cons_self)

/-! ## Explained trees -/

namespace Session

/-- A finding is recorded that concerns the name. -/
def Explains (session : Session) (name : String) : Prop :=
  ∃ finding ∈ session.findings, finding.concerns name = true

/-- Every empty condition in the tree is explained. -/
def ExplainsTree (session : Session) (tree : Condition) : Prop :=
  ∀ node : Condition, node.IsNode tree → node.isEmpty = true → session.Explains node.name

/-- Every empty condition in the trees that the session keeps is explained. -/
def Explained (session : Session) : Prop :=
  session.Keeps fun _ built => session.ExplainsTree built.tree

theorem Explains.mono {session after : Session} {name : String} (h : session.Explains name)
    (hgrows : session.findings ⊆ after.findings) : after.Explains name := by
  obtain ⟨finding, hfinding, hconcerns⟩ := h
  exact ⟨finding, hgrows hfinding, hconcerns⟩

theorem ExplainsTree.mono {session after : Session} {tree : Condition}
    (h : session.ExplainsTree tree) (hgrows : session.findings ⊆ after.findings) :
    after.ExplainsTree tree :=
  fun node hnode hempty => (h node hnode hempty).mono hgrows

theorem explainsTree_of_children {session : Session} {tree : Condition}
    (hroot : tree.isEmpty = true → session.Explains tree.name)
    (hchildren : ∀ child ∈ tree.children, session.ExplainsTree child) :
    session.ExplainsTree tree := by
  intro node hnode hempty
  obtain rfl | ⟨child, hchild, hnode⟩ := Condition.isNode_iff.1 hnode
  · exact hroot hempty
  · exact hchildren child hchild node hnode hempty

theorem explainsTree_equals (session : Session) (name : String) (clause : Clause) :
    session.ExplainsTree (.equals name clause) :=
  explainsTree_of_children (fun hempty => absurd hempty Bool.false_ne_true)
    fun _ hchild => absurd hchild List.not_mem_nil

theorem explainsTree_empty {session : Session} {name : String} (h : session.Explains name) :
    session.ExplainsTree (.empty name) :=
  explainsTree_of_children (fun _ => h) fun _ hchild => absurd hchild List.not_mem_nil

theorem findings_subset_report (session : Session) (finding : Finding) :
    session.findings ⊆ (session.report finding).findings :=
  fun _ h => mem_findings_report.2 (.inl h)

theorem findings_subset_reportAll (session : Session) (findings : List Finding) :
    session.findings ⊆ (session.reportAll findings).findings :=
  fun _ h => mem_findings_reportAll.2 (.inl h)

theorem explains_report {session : Session} {finding : Finding} {name : String}
    (h : finding.concerns name = true) : (session.report finding).Explains name :=
  ⟨finding, mem_findings_report.2 (.inr rfl), h⟩

theorem Explained.report {session : Session} (h : session.Explained) (finding : Finding) :
    (session.report finding).Explained :=
  (Keeps.report h finding).imp fun _ _ hbuilt =>
    hbuilt.mono (findings_subset_report session finding)

theorem Explained.reportAll {session : Session} (h : session.Explained)
    (findings : List Finding) : (session.reportAll findings).Explained :=
  (Keeps.reportAll h findings).imp fun _ _ hbuilt =>
    hbuilt.mono (findings_subset_reportAll session findings)

end Session

/-! ## What a visit explains -/

/-- The outcome is explained: every empty condition in a tree that is returned, and the name where
none is.  The cause of giving up is recorded, because names further up rely on it. -/
def ExplainedOutcome (session : Session) (name : String) : Except Finding Built → Prop
  | .ok built => session.ExplainsTree built.tree
  | .error cause => cause ∈ session.findings ∧ session.Explains name

/-- What the visit of a name owes to an explained session. -/
structure Accounts (session : Session) (name : String) (outcome : Outcome Built) : Prop where
  grows : session.findings ⊆ outcome.1.findings
  kept : outcome.1.Explained
  result : ExplainedOutcome outcome.1 name outcome.2

/-- The same for several names. -/
def ExplainedOutcomes (session : Session) : Except Finding (List Built) → Prop
  | .ok children => ∀ child ∈ children, session.ExplainsTree child.tree
  | .error cause => cause ∈ session.findings

theorem visitEach_accounts {session : Session} {names : List String}
    {outcome : Outcome (List Built)}
    (h : VisitEach (fun session name outcome =>
      session.Explained → Accounts session name outcome) session names outcome)
    (hexplained : session.Explained) :
    session.findings ⊆ outcome.1.findings ∧ outcome.1.Explained ∧
      ExplainedOutcomes outcome.1 outcome.2 := by
  induction h with
  | done session =>
    exact ⟨List.Subset.refl _, hexplained, fun _ hchild => absurd hchild List.not_mem_nil⟩
  | stop hfirst =>
    obtain ⟨hgrows, hkept, hcause, _⟩ := hfirst hexplained
    exact ⟨hgrows, hkept, hcause⟩
  | stopLater hfirst _ ih =>
    obtain ⟨hgrows, hkept, _⟩ := hfirst hexplained
    obtain ⟨hgrows', hkept', hcause⟩ := ih hkept
    exact ⟨List.Subset.trans hgrows hgrows', hkept', hcause⟩
  | more hfirst _ ih =>
    obtain ⟨hgrows, hkept, hbuilt⟩ := hfirst hexplained
    obtain ⟨hgrows', hkept', hothers⟩ := ih hkept
    -- What explained the first tree is still recorded after the others.
    exact ⟨List.Subset.trans hgrows hgrows', hkept',
      List.forall_mem_cons.2 ⟨hbuilt.mono hgrows', hothers⟩⟩

theorem accounts_giveUp {session : Session} {name : String} {cause : Finding}
    (h : session.Explained) (hcause : cause.concerns name = true) :
    Accounts session name (.giveUp session cause) :=
  ⟨session.findings_subset_report cause, h.report cause,
    Session.mem_findings_report.2 (.inr rfl), Session.explains_report hcause⟩

theorem accounts_finish {session after : Session} {name : String} {built : Built}
    (hgrows : session.findings ⊆ after.findings) (hkept : after.Explained)
    (hbuilt : after.ExplainsTree built.tree) : Accounts session name (.finish after name built) :=
  ⟨hgrows, Session.Keeps.keep hkept hbuilt, hbuilt⟩

/-- One step: if the visits of the targets account for them, the visit of the name does. -/
theorem visit_accounts {room : Nat} {path : List String} {session : Session} {name : String}
    {outcome : Outcome Built}
    (h : Visit definitions (fun _ _ session name outcome =>
      session.Explained → Accounts session name outcome) room path session name outcome)
    (hexplained : session.Explained) : Accounts session name outcome := by
  cases h with
  | reused hbuilt => exact ⟨List.Subset.refl _, hexplained, hexplained _ _ hbuilt⟩
  | tooHigh => exact accounts_giveUp hexplained (beq_self_eq_true name)
  | circular => exact accounts_giveUp hexplained (concerns_cycleThrough name path)
  | tooDeep => exact accounts_giveUp hexplained (beq_self_eq_true name)
  | undeclared =>
    have hname : (session.report (.unknownCondition name)).Explains name :=
      Session.explains_report (beq_self_eq_true name)
    exact ⟨session.findings_subset_report _, hexplained.report _, Session.explainsTree_empty hname⟩
  | malformed =>
    exact accounts_finish (session.findings_subset_report _) (hexplained.report _)
      (Session.explainsTree_empty (Session.explains_report (Finding.concerns_ofFault name _)))
  | comparison =>
    exact accounts_finish (List.Subset.refl _) hexplained (session.explainsTree_equals _ _)
  | dangling _ _ _ hmissing =>
    obtain ⟨target, htarget⟩ := List.exists_mem_of_ne_nil _ hmissing
    have hfinding := List.mem_map_of_mem (f := Finding.danglingReference name) htarget
    exact accounts_finish (session.findings_subset_reportAll _) (hexplained.reportAll _)
      (Session.explainsTree_empty
        ⟨_, Session.mem_findings_reportAll.2 (.inr hfinding), beq_self_eq_true name⟩)
  | combined _ hcombines hbelow =>
    obtain ⟨hgrows, hkept, hchildren⟩ := visitEach_accounts hbelow hexplained
    have hallowed := hcombines.allowed
    rw [← hbelow.length_eq rfl] at hallowed
    refine accounts_finish hgrows hkept (Session.explainsTree_of_children (fun hempty => ?_) ?_)
    · rw [isEmpty_combineBuilt name hallowed] at hempty
      exact absurd hempty Bool.false_ne_true
    · rw [children_combineBuilt name hallowed]
      exact List.forall_mem_map.2 hchildren
  | degraded _ _ hbelow =>
    obtain ⟨hgrows, hkept, hcause⟩ := visitEach_accounts hbelow hexplained
    split
    · rename_i hconcerns
      exact ⟨hgrows, hkept, hcause, _, hcause, hconcerns⟩
    · exact ⟨List.Subset.trans hgrows (Session.findings_subset_report _ _), hkept.report _,
        Session.findings_subset_report _ _ hcause,
        Session.explains_report (Finding.concerns_degraded name _)⟩

theorem resolveBelow_accounts (room : Nat) (path : List String) {session : Session}
    (name : String) (hexplained : session.Explained) :
    Accounts session name (resolveBelow definitions room path session name) :=
  resolveBelow_induction (fun h hexplained => visit_accounts h hexplained) room path session name
    hexplained

/-! ## What a finding shows -/

/-- A tree that is returned has an empty condition in it if its visit recorded a finding. -/
def Shows (session : Session) : Outcome Built → Prop
  | (after, .ok built) => after.findings = session.findings ∨ built.tree.HasEmpty
  | (_, .error _) => True

/-- The same for the trees of several names. -/
def ShowsEach (session : Session) : Outcome (List Built) → Prop
  | (after, .ok children) =>
    after.findings = session.findings ∨ ∃ child ∈ children, child.tree.HasEmpty
  | (_, .error _) => True

theorem visitEach_shows {session : Session} {names : List String} {outcome : Outcome (List Built)}
    (h : VisitEach (fun session _ outcome => Shows session outcome) session names outcome) :
    ShowsEach session outcome := by
  induction h with
  | done => exact .inl rfl
  | stop | stopLater => trivial
  | more hfirst _ ih =>
    obtain hsame | hempty := hfirst
    · obtain hsame' | ⟨child, hchild, hempty⟩ := ih
      · exact .inl (hsame'.trans hsame)
      · exact .inr ⟨child, List.mem_cons_of_mem _ hchild, hempty⟩
    · exact .inr ⟨_, List.mem_cons_self, hempty⟩

/-- One step: if the trees of the targets show their findings, the tree of the name does. -/
theorem visit_shows {room : Nat} {path : List String} {session : Session} {name : String}
    {outcome : Outcome Built}
    (h : Visit definitions (fun _ _ session _ outcome => Shows session outcome)
      room path session name outcome) : Shows session outcome := by
  cases h with
  | tooHigh | circular | tooDeep | degraded => trivial
  | reused | comparison => exact .inl rfl
  | undeclared | malformed | dangling => exact .inr (Condition.hasEmpty_empty name)
  | combined _ hcombines hbelow =>
    have hallowed := hcombines.allowed
    rw [← hbelow.length_eq rfl] at hallowed
    obtain hsame | ⟨child, hchild, hempty⟩ := visitEach_shows hbelow
    · exact .inl hsame
    · refine .inr (hempty.of_child ?_)
      rw [children_combineBuilt name hallowed]
      exact List.mem_map_of_mem hchild

theorem resolveBelow_shows (definitions : Definitions) (room : Nat) (path : List String)
    (session : Session) (name : String) :
    Shows session (resolveBelow definitions room path session name) :=
  resolveBelow_induction (fun h => visit_shows h) room path session name

/-! ## Resolution from the top -/

namespace Session

theorem resolve_explains (limit : Nat) {session : Session} (name : String)
    (h : session.Explained) :
    session.findings ⊆ (session.resolve definitions limit name).1.findings ∧
      (session.resolve definitions limit name).1.Explained ∧
      (session.resolve definitions limit name).1.ExplainsTree
        (session.resolve definitions limit name).2.tree := by
  have haccounts : Accounts session name (resolveBelow definitions limit [] session name) :=
    resolveBelow_accounts limit [] name h
  obtain ⟨after, built, hbelow, hresolve⟩ | ⟨after, cause, hbelow, hresolve⟩ :=
    resolve_cases definitions limit session name
  · rw [hbelow] at haccounts
    rw [hresolve]
    exact ⟨haccounts.grows, haccounts.kept, haccounts.result⟩
  · rw [hbelow] at haccounts
    rw [hresolve]
    exact ⟨haccounts.grows, haccounts.kept, explainsTree_empty haccounts.result.2⟩

theorem resolve_shows (definitions : Definitions) (limit : Nat) (session : Session)
    (name : String) :
    (session.resolve definitions limit name).1.findings = session.findings ∨
      (session.resolve definitions limit name).2.tree.HasEmpty := by
  have hshows := resolveBelow_shows definitions limit [] session name
  obtain ⟨after, built, hbelow, hresolve⟩ | ⟨after, cause, _, hresolve⟩ :=
    resolve_cases definitions limit session name
  · rw [hbelow] at hshows
    rw [hresolve]
    exact hshows
  · rw [hresolve]
    exact .inr (Condition.hasEmpty_empty name)

/-- Every empty condition in the returned trees is explained at the end of the run. -/
theorem resolveAll_explains (limit : Nat) {session : Session} (names : List String)
    (h : session.Explained) :
    session.findings ⊆ (session.resolveAll definitions limit names).1.findings ∧
      ∀ condition ∈ (session.resolveAll definitions limit names).2,
        (session.resolveAll definitions limit names).1.ExplainsTree condition.tree := by
  induction names generalizing session with
  | nil => exact ⟨List.Subset.refl _, fun _ hcondition => absurd hcondition List.not_mem_nil⟩
  | cons name rest ih =>
    obtain ⟨hgrows, hkept, htree⟩ := resolve_explains limit name h
    obtain ⟨hgrows', hothers⟩ := ih hkept
    exact ⟨List.Subset.trans hgrows hgrows',
      List.forall_mem_cons.2 ⟨htree.mono hgrows', hothers⟩⟩

/-- A run without an empty condition in any of its trees records nothing. -/
theorem resolveAll_shows (definitions : Definitions) (limit : Nat) (session : Session)
    (names : List String) :
    (session.resolveAll definitions limit names).1.findings = session.findings ∨
      ∃ condition ∈ (session.resolveAll definitions limit names).2, condition.tree.HasEmpty := by
  induction names generalizing session with
  | nil => exact .inl rfl
  | cons name rest ih =>
    obtain hsame | hempty := resolve_shows definitions limit session name
    · obtain hsame' | ⟨condition, hcondition, hempty⟩ :=
        ih (session.resolve definitions limit name).1
      · exact .inl (hsame'.trans hsame)
      · exact .inr ⟨condition, List.mem_cons_of_mem _ hcondition, hempty⟩
    · exact .inr ⟨_, List.mem_cons_self, hempty⟩

/-- The findings of a new session are none if and only if none of its trees has an empty condition
in it. -/
theorem findings_resolveAll_eq_nil_iff (definitions : Definitions) (limit : Nat)
    (names : List String) :
    (resolveAll definitions limit {} names).1.findings = [] ↔
      ∀ condition ∈ (resolveAll definitions limit {} names).2, ¬ condition.tree.HasEmpty := by
  constructor
  · rintro hnone condition hcondition ⟨node, hnode, hempty⟩
    obtain ⟨finding, hfinding, _⟩ :=
      (resolveAll_explains limit names keeps_new).2 condition hcondition node hnode hempty
    rw [hnone] at hfinding
    exact List.not_mem_nil hfinding
  · intro h
    obtain hsame | ⟨condition, hcondition, hempty⟩ :=
      resolveAll_shows definitions limit {} names
    · rw [hsame, findings_new]
    · exact absurd hempty (h condition hcondition)

end Session

/-! ## The conditions of a template -/

theorem mem_resolveAll_iff {limit : Nat} {condition : Resolved} :
    condition ∈ (Session.resolveAll definitions limit {} (definitions.map Prod.fst)).2 ↔
      ∃ name, (ConditionSet.ofDefinitions definitions limit).get? name = some condition := by
  rw [(Session.resolveAll_eq limit (definitions.map Prod.fst) Session.keeps_new).2, List.mem_map]
  simp only [get?_eq_some_iff, Definitions.declares, Ordered.find?_isSome]

/-- An empty condition anywhere in the trees of a template is empty under its own name. -/
theorem exists_empty_of_hasEmpty {limit : Nat} {name : String} {condition : Resolved}
    (hget : (ConditionSet.ofDefinitions definitions limit).get? name = some condition)
    (h : condition.tree.HasEmpty) :
    ∃ lower other, (ConditionSet.ofDefinitions definitions limit).get? lower = some other ∧
      other.tree.isEmpty = true := by
  obtain ⟨hname, rfl⟩ := get?_eq_some_iff.1 hget
  obtain ⟨node, hnode, hempty⟩ := h
  have hdeclared := (resolve_standsFor definitions limit name).declares_node hname hnode
  refine ⟨node.name, _, get?_eq_some_iff.2 ⟨hdeclared, rfl⟩, ?_⟩
  rw [resolve_node hnode]
  exact hempty

/-- An empty condition of a template has findings that concern it. -/
theorem findingsFor_ne_nil {limit : Nat} {name : String} {condition : Resolved}
    (hget : (ConditionSet.ofDefinitions definitions limit).get? name = some condition)
    (hempty : condition.tree.isEmpty = true) :
    (ConditionSet.ofDefinitions definitions limit).findingsFor name ≠ [] := by
  have hname : condition.tree.name = name := by
    obtain ⟨_, rfl⟩ := get?_eq_some_iff.1 hget
    exact (resolve_standsFor definitions limit name).name_eq
  obtain ⟨finding, hfinding, hconcerns⟩ :=
    (Session.resolveAll_explains limit _ Session.keeps_new).2 condition
      (mem_resolveAll_iff.2 ⟨name, hget⟩) _ (.root _) hempty
  rw [hname] at hconcerns
  exact List.ne_nil_of_mem (List.mem_filter.2 ⟨hfinding, hconcerns⟩)

/-- A template has no findings if and only if none of its conditions is empty. -/
theorem findings_ofDefinitions_eq_nil_iff (definitions : Definitions) (limit : Nat) :
    (ConditionSet.ofDefinitions definitions limit).findings = [] ↔
      ∀ name condition,
        (ConditionSet.ofDefinitions definitions limit).get? name = some condition →
          condition.tree.isEmpty = false := by
  refine (Session.findings_resolveAll_eq_nil_iff definitions limit _).trans ⟨?_, ?_⟩
  · intro h name condition hget
    rw [Bool.eq_false_iff]
    intro hempty
    exact h condition (mem_resolveAll_iff.2 ⟨name, hget⟩) ⟨_, .root _, hempty⟩
  · intro h condition hcondition hempty
    obtain ⟨name, hget⟩ := mem_resolveAll_iff.1 hcondition
    -- The empty condition may stand deep in a tree, but it has an entry of its own.
    obtain ⟨lower, other, hlower, hother⟩ := exists_empty_of_hasEmpty hget hempty
    rw [h lower other hlower] at hother
    exact absurd hother Bool.false_ne_true

/-! ## Main results -/

/-- Whatever names are resolved in one session, every empty condition at any position of the trees
has a finding that concerns it, and there are findings if and only if there are empty conditions.
For the conditions of a template it is enough to look at the conditions themselves. -/
theorem empty_iff_findings (definitions : Definitions) (limit : Nat) :
    (∀ names : List String,
      let run := Session.resolveAll definitions limit {} names
      (∀ condition ∈ run.2, ∀ node : Condition, node.IsNode condition.tree →
        node.isEmpty = true → ∃ finding ∈ run.1.findings, finding.concerns node.name = true) ∧
      (run.1.findings = [] ↔ ∀ condition ∈ run.2, ∀ node : Condition,
        node.IsNode condition.tree → node.isEmpty = false)) ∧
    let set := ConditionSet.ofDefinitions definitions limit
    (∀ name condition, set.get? name = some condition → condition.tree.isEmpty = true →
      set.findingsFor name ≠ []) ∧
    (set.findings = [] ↔ ∀ name condition, set.get? name = some condition →
      condition.tree.isEmpty = false) := by
  refine ⟨fun names => ⟨?_, ?_⟩, fun name condition => findingsFor_ne_nil,
    findings_ofDefinitions_eq_nil_iff definitions limit⟩
  · exact (Session.resolveAll_explains limit names Session.keeps_new).2
  · rw [Session.findings_resolveAll_eq_nil_iff]
    simp only [Condition.HasEmpty, not_exists, not_and, Bool.not_eq_true]

/-- A negation that the limit leaves no room for. -/
theorem findingsFor_dev :
    (ConditionSet.ofDefinitions prodAndDev 1).findingsFor "Dev" ≠ [] :=
  (empty_iff_findings prodAndDev 1).2.1 "Dev" _ rfl rfl

end TemplateConditions
