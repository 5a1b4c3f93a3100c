import TemplateConditions.Proofs.Resolution.Bounds

/-!
# What a resolution reports

The findings of a resolution, told without a session.  A name that has a tree shows the faults of
the empty conditions in it, from left to right.  A name that is given up shows the faults of the
trees that were finished on the way, then the finding that ended the path, and then one for each
condition that goes down with it.  Whatever a session remembers, it records these findings in this
order, except those that it has already.
-/

namespace TemplateConditions

variable {definitions : Definitions} {limit : Nat}

/-! ## Faults -/

/-- What is wrong with the definition of a name, apart from what the names in it are declared to
be. -/
def Definitions.faults (definitions : Definitions) (name : String) : List Finding :=
  match Ordered.find? name definitions with
  | none => [.unknownCondition name]
  | some definition =>
    match Definition.ofJson definition with
    | .error fault => [.ofFault name fault]
    | .ok (.comparison _) => []
    | .ok (.combination _ targets) =>
      (definitions.missing targets).map (.danglingReference name)

theorem Definitions.faults_of_not_found {name : String}
    (hfound : Ordered.find? name definitions = none) :
    definitions.faults name = [.unknownCondition name] := by
  rw [faults, hfound]

theorem Definitions.faults_of_error {name : String} {definition : Json} {fault : Definition.Fault}
    (hfound : Ordered.find? name definitions = some definition)
    (hread : Definition.ofJson definition = .error fault) :
    definitions.faults name = [.ofFault name fault] := by
  rw [faults, hfound]
  dsimp only
  rw [hread]

theorem Definitions.faults_of_combination {name : String} {connective : Connective}
    {targets : List String}
    (hfound : Ordered.find? name definitions =
      some (Definition.combinationToJson connective targets))
    (hallowed : connective.allows targets.length = true) :
    definitions.faults name = (definitions.missing targets).map (.danglingReference name) := by
  rw [faults, hfound]
  dsimp only
  rw [Definition.ofJson_eq_combination_iff.2 ⟨rfl, hallowed⟩]

namespace Condition

mutual

/-- The findings about the empty conditions in a tree, from left to right. -/
def faults (definitions : Definitions) : Condition → List Finding
  | .equals _ _ => []
  | .and _ children => allFaults definitions children
  | .or _ children => allFaults definitions children
  | .not _ child => child.faults definitions
  | .empty name => definitions.faults name

def allFaults (definitions : Definitions) : List Condition → List Finding
  | [] => []
  | child :: rest => child.faults definitions ++ allFaults definitions rest

end

theorem faults_equals (definitions : Definitions) (name : String) (clause : Clause) :
    (Condition.equals name clause).faults definitions = [] := by rw [faults]

theorem faults_empty (definitions : Definitions) (name : String) :
    (Condition.empty name).faults definitions = definitions.faults name := by rw [faults]

theorem allFaults_eq (definitions : Definitions) (children : List Condition) :
    allFaults definitions children = children.flatMap (faults definitions) := by
  induction children with
  | nil => rw [allFaults, List.flatMap_nil]
  | cons child rest ih => rw [allFaults, ih, List.flatMap_cons]

theorem faults_combine {name : String} {connective : Connective} {children : List Condition}
    (h : connective.allows children.length = true) :
    (combine name connective children).faults definitions =
      children.flatMap (faults definitions) := by
  match connective, children with
  | .and, _ => rw [combine, faults, allFaults_eq]
  | .or, _ => rw [combine, faults, allFaults_eq]
  | .not, [child] => rw [combine, faults, List.flatMap_singleton]
  | .not, [] => exact absurd (length_eq_one_of_allows_not h) (by decide)
  | .not, _ :: _ :: _ => exact absurd (length_eq_one_of_allows_not h) (by simp)

end Condition

theorem faults_combineBuilt {name : String} {connective : Connective} {children : List Built}
    (h : connective.allows children.length = true) :
    (combineBuilt name connective children).tree.faults definitions =
      children.flatMap fun child => child.tree.faults definitions := by
  rw [tree_combineBuilt, Condition.faults_combine (by rw [List.length_map]; exact h),
    List.flatMap_map]

/-! ## Findings about paths -/

/-- The finding is about a path that is given up, and not about one definition. -/
def Finding.AboutPath : Finding → Prop
  | .circularReference _ => True
  | .depthExceeded _ _ => True
  | .degraded _ _ => True
  | _ => False

theorem Definitions.not_aboutPath_of_mem_faults {name : String} {finding : Finding}
    (h : finding ∈ definitions.faults name) : ¬ finding.AboutPath := by
  unfold Definitions.faults at h
  split at h
  · rw [List.mem_singleton.1 h]
    exact not_false
  · split at h
    · rename_i fault _
      rw [List.mem_singleton.1 h]
      cases fault <;> exact not_false
    · exact absurd h List.not_mem_nil
    · obtain ⟨target, _, rfl⟩ := List.mem_map.1 h
      exact not_false

/-- The faults of a tree are those of the names in it, and so none of them is about a path. -/
theorem Condition.not_aboutPath_of_mem_faults {tree : Condition} {finding : Finding}
    (h : finding ∈ tree.faults definitions) : ¬ finding.AboutPath := by
  induction tree using induction_on_children with
  | step tree ih =>
    cases tree with
    | equals name clause =>
      rw [faults_equals] at h
      exact absurd h List.not_mem_nil
    | empty name =>
      rw [faults_empty] at h
      exact Definitions.not_aboutPath_of_mem_faults h
    | and name children | or name children =>
      rw [faults, allFaults_eq] at h
      obtain ⟨child, hchild, hfinding⟩ := List.mem_flatMap.1 h
      exact ih child hchild hfinding
    | not name child =>
      rw [faults] at h
      exact ih child List.mem_cons_self h

/-! ## Names that are given up -/

/-- The finding that a condition goes down because of a cause, unless the cause says so itself. -/
def Finding.blame (name : String) (cause : Finding) : List Finding :=
  if cause.concerns name then [] else [.degraded name cause]

/-- Below the path, the name is given up because of the cause, and the findings are those that come
up on the way. -/
inductive Abandons (definitions : Definitions) (limit : Nat) :
    List String → String → List Finding → Finding → Prop
  | circular {path : List String} {name : String} (hpath : name ∈ path) :
    Abandons definitions limit path name [.circularReference (cycleThrough name path)]
      (.circularReference (cycleThrough name path))
  | tooDeep {path : List String} {name : String} {room : Nat} (hoff : name ∉ path)
    (hroom : path.length + room = limit) (hsmall : TooSmall definitions room name) :
    Abandons definitions limit path name [.depthExceeded name limit] (.depthExceeded name limit)
  | under {path rest : List String} {name target : String} {connective : Connective}
    {passed : List Condition} {found : List Finding} {cause : Finding} (hoff : name ∉ path)
    (hcombines :
      definitions.Combines name connective (passed.map Condition.name ++ target :: rest))
    (hpassed : ∀ tree ∈ passed, tree.Unfolded definitions)
    (htarget : Abandons definitions limit (name :: path) target found cause) :
    Abandons definitions limit path name
      (passed.flatMap (Condition.faults definitions) ++ found ++ cause.blame name) cause

/-! ## Findings added to a session -/

namespace Session

theorem reportAll_append (session : Session) (found more : List Finding) :
    session.reportAll (found ++ more) = (session.reportAll found).reportAll more :=
  List.foldl_append

theorem findings_reportAll_congr {session other : Session} (h : session.findings = other.findings)
    (found : List Finding) :
    (session.reportAll found).findings = (other.reportAll found).findings := by
  induction found generalizing session other with
  | nil => exact h
  | cons finding rest ih =>
    have hreport : (session.report finding).findings = (other.report finding).findings := by
      rw [findings_report, findings_report, h]
    exact ih hreport

/-- Findings that are recorded already change nothing. -/
theorem findings_reportAll_of_subset {session : Session} {found : List Finding}
    (h : found ⊆ session.findings) : (session.reportAll found).findings = session.findings := by
  induction found with
  | nil => rfl
  | cons finding rest ih =>
    obtain ⟨hfinding, hrest⟩ := List.cons_subset.1 h
    have hsame : (session.report finding).findings = session.findings := by
      rw [findings_report, if_pos hfinding]
    exact (findings_reportAll_congr hsame rest).trans (ih hrest)

/-- The later session has the findings of the earlier one, followed by the new ones among those
that were found. -/
def Adds (session after : Session) (found : List Finding) : Prop :=
  after.findings = (session.reportAll found).findings

variable {session between after : Session} {found more : List Finding}

theorem adds_nil (session : Session) : session.Adds session [] := rfl

theorem adds_report (session : Session) (finding : Finding) :
    session.Adds (session.report finding) [finding] := rfl

theorem adds_reportAll (session : Session) (found : List Finding) :
    session.Adds (session.reportAll found) found := rfl

theorem adds_of_subset (h : found ⊆ session.findings) : session.Adds session found :=
  (findings_reportAll_of_subset h).symm

theorem Adds.trans (h : session.Adds between found) (h' : between.Adds after more) :
    session.Adds after (found ++ more) := by
  unfold Adds at *
  rw [h', reportAll_append]
  exact findings_reportAll_congr h more

theorem Adds.keep (h : session.Adds after found) (name : String) (built : Built) :
    session.Adds (after.keep name built) found := h

theorem Adds.blame (h : session.Adds after found) (name : String) (cause : Finding) :
    session.Adds (if cause.concerns name then after else after.report (.degraded name cause))
      (found ++ cause.blame name) := by
  rw [Finding.blame]
  split
  · rw [List.append_nil]
    exact h
  · exact h.trans (after.adds_report _)

theorem Adds.mem_iff (h : session.Adds after found) {finding : Finding} :
    finding ∈ after.findings ↔ finding ∈ session.findings ∨ finding ∈ found := by
  rw [show after.findings = _ from h, mem_findings_reportAll]

theorem Adds.grows (h : session.Adds after found) : session.findings ⊆ after.findings :=
  fun _ hold => h.mem_iff.2 (.inl hold)

theorem Adds.subset (h : session.Adds after found) : found ⊆ after.findings :=
  fun _ hnew => h.mem_iff.2 (.inr hnew)

/-- The faults of all kept trees are recorded. -/
def Complete (definitions : Definitions) (session : Session) : Prop :=
  session.Keeps fun _ built => built.tree.faults definitions ⊆ session.findings

theorem complete_new (definitions : Definitions) : ({} : Session).Complete definitions :=
  keeps_new

theorem Complete.report (h : session.Complete definitions) (finding : Finding) :
    (session.report finding).Complete definitions :=
  (Keeps.report h finding).imp fun _ _ hbuilt =>
    List.Subset.trans hbuilt (session.adds_report finding).grows

theorem Complete.reportAll (h : session.Complete definitions) (found : List Finding) :
    (session.reportAll found).Complete definitions :=
  (Keeps.reportAll h found).imp fun _ _ hbuilt =>
    List.Subset.trans hbuilt (session.adds_reportAll found).grows

end Session

/-! ## What a visit tells -/

/-- A tree that is returned has told its faults; where none is returned, everything has been told
that comes up until the name is given up. -/
def Tells (definitions : Definitions) (limit : Nat) (path : List String) (session : Session)
    (name : String) : Outcome Built → Prop
  | (after, .ok built) => session.Adds after (built.tree.faults definitions)
  | (after, .error cause) =>
    ∃ found, Abandons definitions limit path name found cause ∧ session.Adds after found

/-- The same for several names, of which one is given up behind those that have their trees. -/
def TellsEach (definitions : Definitions) (limit : Nat) (path : List String) (session : Session)
    (names : List String) : Outcome (List Built) → Prop
  | (after, .ok children) =>
    session.Adds after (children.flatMap fun child => child.tree.faults definitions)
  | (after, .error cause) =>
    ∃ (passed : List Condition) (target : String) (rest : List String) (found : List Finding),
      names = passed.map Condition.name ++ target :: rest ∧
        (∀ tree ∈ passed, tree.Unfolded definitions) ∧
          Abandons definitions limit path target found cause ∧
            session.Adds after (passed.flatMap (Condition.faults definitions) ++ found)

/-- What is known of the visit of a target, and what is shown of it. -/
structure TargetTold (definitions : Definitions) (limit room : Nat) (path : List String)
    (session : Session) (name : String) (outcome : Outcome Built) : Prop where
  sound : outcome.1.Sound definitions
  settles : Settles definitions room name outcome.2
  complete : outcome.1.Complete definitions
  tells : Tells definitions limit path session name outcome

theorem visitEach_tells (room : Nat) {path : List String} {session : Session}
    {names : List String} {outcome : Outcome (List Built)}
    (h : VisitEach (fun session name outcome => session.Sound definitions →
      session.Complete definitions → TargetTold definitions limit room path session name outcome)
      session names outcome)
    (hsound : session.Sound definitions) (hcomplete : session.Complete definitions) :
    outcome.1.Complete definitions ∧ TellsEach definitions limit path session names outcome := by
  induction h with
  | done session => exact ⟨hcomplete, session.adds_nil⟩
  | stop hfirst =>
    have htold := hfirst hsound hcomplete
    obtain ⟨found, habandons, hadds⟩ := htold.tells
    exact ⟨htold.complete, [], _, _, found, rfl, fun _ htree => absurd htree List.not_mem_nil,
      habandons, hadds⟩
  | stopLater hfirst _ ih =>
    rename_i built _ _
    have htold := hfirst hsound hcomplete
    obtain ⟨hunfolds, _⟩ := htold.settles
    have hfirstAdds : Session.Adds _ _ (built.tree.faults definitions) := htold.tells
    obtain ⟨hafter, passed, target, rest, found, hnames, hpassed, habandons, hadds⟩ :=
      ih htold.sound htold.complete
    -- The tree of the first name is one more that is finished before the target.
    refine ⟨hafter, built.tree :: passed, target, rest, found, ?_, ?_, habandons, ?_⟩
    · rw [List.map_cons, hunfolds.name_eq, hnames, List.cons_append]
    · exact List.forall_mem_cons.2 ⟨hunfolds.unfolded, hpassed⟩
    · rw [List.flatMap_cons, List.append_assoc]
      exact hfirstAdds.trans hadds
  | more hfirst _ ih =>
    have htold := hfirst hsound hcomplete
    obtain ⟨hafter, hadds⟩ := ih htold.sound htold.complete
    refine ⟨hafter, ?_⟩
    rw [TellsEach, List.flatMap_cons]
    exact Session.Adds.trans htold.tells hadds

/-- What is shown of every visit within the limit. -/
def ToldVisit (definitions : Definitions) (limit room : Nat) (path : List String)
    (session : Session) (name : String) (outcome : Outcome Built) : Prop :=
  session.Sound definitions → Entered definitions path name → path.length + room = limit →
    session.Complete definitions →
      outcome.1.Complete definitions ∧ Tells definitions limit path session name outcome

/-- The targets of a combination are visited along the path to its name and that name itself. -/
theorem targets_tell {room : Nat} {path : List String} {session : Session} {name : String}
    {connective : Connective} {targets : List String} {outcome : Outcome (List Built)}
    (hoff : name ∉ path) (hcombines : definitions.Combines name connective targets)
    (h : VisitEach (fun session target outcome =>
      SettledVisit definitions room (name :: path) session target outcome ∧
        ToldVisit definitions limit room (name :: path) session target outcome)
      session targets outcome)
    (hsound : session.Sound definitions) (hentered : Entered definitions path name)
    (hroom : path.length + (room + 1) = limit) (hcomplete : session.Complete definitions) :
    outcome.1.Complete definitions ∧
      TellsEach definitions limit (name :: path) session targets outcome := by
  refine visitEach_tells room
    (h.imp fun session target htarget outcome hvisit hsound hcomplete => ?_) hsound hcomplete
  have hbelow : Entered definitions (name :: path) target :=
    hentered.below hoff ⟨connective, targets, hcombines, htarget⟩
  have hless : (name :: path).length + room = limit := by
    rw [List.length_cons]
    omega
  obtain ⟨hsettledSound, hsettles⟩ := hvisit.1 hsound hbelow.leads
  obtain ⟨hafter, htells⟩ := hvisit.2 hsound hbelow hless hcomplete
  exact ⟨hsettledSound, hsettles, hafter, htells⟩

theorem tells_giveUp {path : List String} {name : String} {session : Session} {cause : Finding}
    (hcomplete : session.Complete definitions)
    (h : Abandons definitions limit path name [cause] cause) :
    (session.report cause).Complete definitions ∧
      Tells definitions limit path session name (.giveUp session cause) :=
  ⟨hcomplete.report cause, [cause], h, session.adds_report cause⟩

theorem tells_finish {path : List String} {name : String} {session after : Session}
    {built : Built} (hcomplete : after.Complete definitions)
    (hadds : session.Adds after (built.tree.faults definitions)) :
    (after.keep name built).Complete definitions ∧
      Tells definitions limit path session name (.finish after name built) :=
  ⟨Session.Keeps.keep hcomplete hadds.subset, hadds.keep name built⟩

/-- One step: if the visits of the targets tell what comes up, the visit of the name does. -/
theorem visit_tells {room : Nat} {path : List String} {session : Session} {name : String}
    {outcome : Outcome Built}
    (h : Visit definitions (fun room path session name outcome =>
      SettledVisit definitions room path session name outcome ∧
        ToldVisit definitions limit room path session name outcome)
      room path session name outcome) :
    ToldVisit definitions limit room path session name outcome := by
  intro hsound hentered hroom hcomplete
  cases h with
  | reused hbuilt =>
    -- The faults of the kept tree were recorded when it was built.
    exact ⟨hcomplete, Session.adds_of_subset (hcomplete _ _ hbuilt)⟩
  | tooHigh hbuilt hbeyond =>
    have hkept := hsound _ _ hbuilt
    rw [hkept.height_eq] at hbeyond
    -- A name that has a tree lies on no cycle, so it is not on its own path.
    have hoff : name ∉ path := fun hmem =>
      hkept.unfolded.acyclic (hkept.name_eq.symm ▸ hentered.leads.reaches hmem)
    rw [hroom]
    exact tells_giveUp hcomplete
      (.tooDeep hoff hroom (.inr ⟨_, hkept.name_eq, hkept.unfolded, hbeyond⟩))
  | circular _ hpath => exact tells_giveUp hcomplete (.circular hpath)
  | tooDeep hfresh =>
    have hlimit : path.length = limit := hroom
    rw [hlimit]
    exact tells_giveUp hcomplete (.tooDeep hfresh.offPath hroom (.inl rfl))
  | undeclared _ hfound =>
    refine ⟨hcomplete.report _, ?_⟩
    rw [Tells, Resolved.empty, Condition.faults_empty, Definitions.faults_of_not_found hfound]
    exact session.adds_report _
  | malformed _ hfound hread =>
    apply tells_finish (hcomplete.report _)
    rw [Resolved.empty, Condition.faults_empty, Definitions.faults_of_error hfound hread]
    exact session.adds_report _
  | comparison =>
    apply tells_finish hcomplete
    rw [Resolved.equals, Condition.faults_equals]
    exact session.adds_nil
  | dangling _ hfound hallowed =>
    apply tells_finish (hcomplete.reportAll _)
    rw [Resolved.empty, Condition.faults_empty,
      Definitions.faults_of_combination hfound hallowed]
    exact session.adds_reportAll _
  | combined hfresh hcombines hbelow =>
    obtain ⟨hafter, hadds⟩ :=
      targets_tell hfresh.offPath hcombines hbelow hsound hentered hroom hcomplete
    have hallowed := hcombines.allowed
    rw [← hbelow.length_eq rfl] at hallowed
    apply tells_finish hafter
    rw [faults_combineBuilt hallowed]
    exact hadds
  | degraded hfresh hcombines hbelow =>
    -- The targets up to the one that is given up are told; behind them comes the blame.
    obtain ⟨hafter, passed, target, rest, found, rfl, hpassed, habandons, hadds⟩ :=
      targets_tell hfresh.offPath hcombines hbelow hsound hentered hroom hcomplete
    refine ⟨?_, _, .under hfresh.offPath hcombines hpassed habandons, hadds.blame name _⟩
    split
    · exact hafter
    · exact hafter.report _

theorem resolveBelow_tells (definitions : Definitions) (limit room : Nat) (path : List String)
    (session : Session) (name : String) :
    ToldVisit definitions limit room path session name
      (resolveBelow definitions room path session name) :=
  resolveBelow_induction_knowing (resolveBelow_settled definitions)
    (fun _ h => visit_tells h) room path session name

/-! ## Resolution from the top -/

/-- The findings of resolving a name from the top: the faults of its unfolded tree, or whatever
comes up until it is given up. -/
inductive Reports (definitions : Definitions) (limit : Nat) (name : String) :
    List Finding → Prop
  | unfolded {tree : Condition} (hname : tree.name = name) (h : tree.Unfolded definitions) :
    Reports definitions limit name (tree.faults definitions)
  | abandoned {found : List Finding} {cause : Finding}
    (h : Abandons definitions limit [] name found cause) : Reports definitions limit name found

theorem Session.resolve_tells (limit : Nat) {session : Session} (name : String)
    (hsound : session.Sound definitions) (hcomplete : session.Complete definitions) :
    (session.resolve definitions limit name).1.Complete definitions ∧
      ∃ found, Reports definitions limit name found ∧
        session.Adds (session.resolve definitions limit name).1 found := by
  have hentered := entered_top definitions name
  obtain ⟨hafter, htells⟩ := resolveBelow_tells definitions limit limit [] session name hsound
    hentered (Nat.zero_add limit) hcomplete
  have hsettles := (resolveBelow_settles limit hsound hentered.leads).2
  obtain ⟨after, built, hbelow, hresolve⟩ | ⟨after, cause, hbelow, hresolve⟩ :=
    resolve_cases definitions limit session name
  · rw [hbelow] at hafter htells hsettles
    rw [hresolve]
    exact ⟨hafter, _, .unfolded hsettles.1.name_eq hsettles.1.unfolded, htells⟩
  · rw [hbelow] at hafter htells
    rw [hresolve]
    obtain ⟨found, habandons, hadds⟩ := htells
    exact ⟨hafter, found, .abandoned habandons, hadds⟩

/-! ## Ample limits -/

/-- With an ample limit, only a cycle makes a name be given up, and so the name has no tree. -/
theorem Abandons.not_unfolded {path : List String} {name : String} {found : List Finding}
    {cause : Finding} (h : Abandons definitions limit path name found cause)
    (hample : Ample definitions limit) (hentered : Entered definitions path name)
    {tree : Condition} (hname : tree.name = name) : ¬ tree.Unfolded definitions := by
  induction h generalizing tree with
  | circular hpath =>
    intro hunfolded
    exact hunfolded.acyclic (hname.symm ▸ hentered.leads.reaches hpath)
  | tooDeep hoff hroom hsmall => exact absurd hsmall (hample.not_tooSmall hentered hoff hroom)
  | under hoff hcombines _ _ ih =>
    -- A tree of the name would have one of the target in it.
    intro hunfolded
    have hlive : definitions.LiveChild _ _ :=
      ⟨_, _, hcombines, List.mem_append_right _ List.mem_cons_self⟩
    obtain ⟨child, _, hchild, hbelow⟩ := hunfolded.exists_child (hname.symm ▸ hlive)
    exact ih (hentered.below hoff hlive) hchild hbelow

/-- Where names that have trees stand before one that has none, the list splits in one way. -/
theorem split_unique {passed passed' : List Condition} {target target' : String}
    {rest rest' : List String}
    (hnames : passed.map Condition.name ++ target :: rest =
      passed'.map Condition.name ++ target' :: rest')
    (hpassed : ∀ tree ∈ passed, tree.Unfolded definitions)
    (hpassed' : ∀ tree ∈ passed', tree.Unfolded definitions)
    (htarget : ∀ tree : Condition, tree.name = target → ¬ tree.Unfolded definitions)
    (htarget' : ∀ tree : Condition, tree.name = target' → ¬ tree.Unfolded definitions) :
    passed = passed' ∧ target = target' := by
  induction passed generalizing passed' with
  | nil =>
    cases passed' with
    | nil => exact ⟨rfl, (List.cons.inj hnames).1⟩
    | cons tree' others' =>
      -- The name that comes next would have a tree and have none.
      have htree := (List.cons.inj hnames).1
      exact absurd (hpassed' tree' List.mem_cons_self) (htarget tree' htree.symm)
  | cons tree others ih =>
    cases passed' with
    | nil =>
      have htree := (List.cons.inj hnames).1
      exact absurd (hpassed tree List.mem_cons_self) (htarget' tree htree)
    | cons tree' others' =>
      obtain ⟨htree, hothers⟩ := List.cons.inj hnames
      obtain ⟨hunfolded, hpassed⟩ := List.forall_mem_cons.1 hpassed
      obtain ⟨hunfolded', hpassed'⟩ := List.forall_mem_cons.1 hpassed'
      obtain ⟨rfl, heq⟩ := ih hothers hpassed hpassed'
      rw [hunfolded.unique hunfolded' htree]
      exact ⟨rfl, heq⟩

/-- What comes up until a name is given up is the same for all ample limits. -/
theorem Abandons.unique {limit' : Nat} {path : List String} {name : String}
    {found found' : List Finding} {cause cause' : Finding}
    (h : Abandons definitions limit path name found cause)
    (h' : Abandons definitions limit' path name found' cause')
    (hample : Ample definitions limit) (hample' : Ample definitions limit')
    (hentered : Entered definitions path name) : found = found' ∧ cause = cause' := by
  induction h generalizing found' cause' with
  | circular hpath =>
    cases h' with
    | circular => exact ⟨rfl, rfl⟩
    | tooDeep hoff | under hoff => exact absurd hpath hoff
  | tooDeep hoff hroom hsmall => exact absurd hsmall (hample.not_tooSmall hentered hoff hroom)
  | under hoff hcombines hpassed htarget ih =>
    cases h' with
    | circular hpath => exact absurd hpath hoff
    | tooDeep hoff' hroom hsmall =>
      exact absurd hsmall (hample'.not_tooSmall hentered hoff' hroom)
    | under _ hcombines' hpassed' htarget' =>
      have hbelow := hentered.below hoff
        ⟨_, _, hcombines, List.mem_append_right _ List.mem_cons_self⟩
      have hbelow' := hentered.below hoff
        ⟨_, _, hcombines', List.mem_append_right _ List.mem_cons_self⟩
      -- The combination has one list of targets, and the first without a tree ends the visit.
      obtain ⟨rfl, rfl⟩ := split_unique (hcombines.unique hcombines').2 hpassed hpassed'
        (fun _ => htarget.not_unfolded hample hbelow)
        (fun _ => htarget'.not_unfolded hample' hbelow')
      obtain ⟨rfl, rfl⟩ := ih htarget' hbelow
      exact ⟨rfl, rfl⟩

/-- The findings of a name are the same for all ample limits. -/
theorem Reports.unique {limit' : Nat} {name : String} {found found' : List Finding}
    (h : Reports definitions limit name found) (h' : Reports definitions limit' name found')
    (hample : Ample definitions limit) (hample' : Ample definitions limit') : found = found' := by
  have hentered := entered_top definitions name
  cases h with
  | unfolded hname hunfolded =>
    cases h' with
    | unfolded hname' hunfolded' =>
      rw [hunfolded.unique hunfolded' (hname.trans hname'.symm)]
    | abandoned hgiven =>
      exact absurd hunfolded (hgiven.not_unfolded hample' hentered hname)
  | abandoned hgiven =>
    cases h' with
    | unfolded hname' hunfolded' =>
      exact absurd hunfolded' (hgiven.not_unfolded hample hentered hname')
    | abandoned hgiven' => exact (hgiven.unique hgiven' hample hample' hentered).1

end TemplateConditions
