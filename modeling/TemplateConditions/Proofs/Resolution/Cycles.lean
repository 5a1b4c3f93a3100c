import Mathlib.Data.List.Cycle
import Mathlib.Data.List.TakeWhile
import TemplateConditions.Proofs.Resolution.Recorded
import TemplateConditions.Proofs.Resolution.Steps

/-!
# Reported cycles

A cycle that is reported is one: its names combine each other in a ring, and all of them are empty.
It is written from its least name on, so that one ring is reported in one way only, whatever name it
was entered by.
-/

namespace TemplateConditions

variable {definitions : Definitions}

/-! ## The least name -/

theorem leastName_cons (first next : String) (rest : List String) :
    leastName first (next :: rest) = leastName (if next < first then next else first) rest := rfl

theorem leastName_mem (first : String) (rest : List String) :
    leastName first rest ∈ first :: rest := by
  induction rest generalizing first with
  | nil => exact List.mem_cons_self
  | cons next rest ih =>
    rw [leastName_cons]
    have hmem := ih (if next < first then next else first)
    split at hmem
    · rw [if_pos ‹_›]
      exact List.mem_cons_of_mem first hmem
    · rw [if_neg ‹_›]
      rcases List.mem_cons.1 hmem with heq | hrest
      · rw [heq]
        exact List.mem_cons_self
      · exact List.mem_cons_of_mem first (List.mem_cons_of_mem next hrest)

theorem leastName_le (first : String) (rest : List String) :
    ∀ name ∈ first :: rest, leastName first rest ≤ name := by
  induction rest generalizing first with
  | nil =>
    intro name hname
    rw [List.mem_singleton.1 hname]
    exact String.le_refl first
  | cons next rest ih =>
    rw [leastName_cons]
    have hle := ih (if next < first then next else first)
    -- The least name of the rest is below the smaller of the first two names.
    have hsmaller := hle _ List.mem_cons_self
    have hfirst : (if next < first then next else first) ≤ first := by
      split
      · exact String.not_lt.1 (String.lt_asymm ‹_›)
      · exact String.le_refl first
    have hnext : (if next < first then next else first) ≤ next := by
      split
      · exact String.le_refl next
      · exact String.not_lt.1 ‹_›
    intro name hname
    rcases List.mem_cons.1 hname with rfl | hname
    · exact String.le_trans hsmaller hfirst
    · rcases List.mem_cons.1 hname with rfl | hrest
      · exact String.le_trans hsmaller hnext
      · exact hle name (List.mem_cons_of_mem _ hrest)

/-! ## Paths of references -/

theorem Definitions.LivePath.reaches {path : List String} (h : definitions.LivePath path) :
    path.Pairwise (Relation.TransGen definitions.LiveChild) :=
  List.isChain_iff_pairwise.1 (List.IsChain.imp (fun _ _ => .single) h)

theorem declares_of_reaches {name target : String}
    (h : Relation.TransGen definitions.LiveChild name target) :
    definitions.declares name = true := by
  obtain ⟨_, ⟨_, _, hcombines, _⟩, _⟩ := Relation.TransGen.head'_iff.1 h
  exact hcombines.declares

/-! ## Rings of names -/

/-- A ring of names from its least one on: no name occurs twice, and each combines the next one, the
last combining the first. -/
structure Ring (definitions : Definitions) (least : String) (others : List String) : Prop where
  distinct : (least :: others).Nodup
  least_le : ∀ name ∈ least :: others, least ≤ name
  live : definitions.LivePath (least :: others ++ [least])

/-- Of a list that has the name, what stands from there on starts with the name. -/
theorem exists_dropWhile_ne {names : List String} {name : String} (h : name ∈ names) :
    ∃ rest, names.dropWhile (· ≠ name) = name :: rest := by
  have hne : names.dropWhile (· ≠ name) ≠ [] := by
    intro hnil
    have hother := List.dropWhile_eq_nil_iff.1 hnil name h
    exact absurd hother (by simp)
  have hhead : (names.dropWhile (· ≠ name)).head hne = name := by
    have hstop := List.head_dropWhile_not (· ≠ name) hne
    simpa using hstop
  have hsplit := List.cons_head_tail hne
  rw [hhead] at hsplit
  exact ⟨_, hsplit.symm⟩

/-- A path from the least name around is a rotation of its cycle, with the least name again. -/
theorem closedFromLeast_eq {cycle : List String} (h : cycle ≠ []) :
    ∃ least others, closedFromLeast cycle = least :: others ++ [least] ∧
      (least :: others) ~r cycle ∧ ∀ name ∈ cycle, least ≤ name := by
  cases cycle with
  | nil => exact absurd rfl h
  | cons first rest =>
    have hmem := leastName_mem first rest
    have hle := leastName_le first rest
    generalize hleast : leastName first rest = least at hmem hle
    obtain ⟨after, hafter⟩ := exists_dropWhile_ne hmem
    refine ⟨least, after ++ (first :: rest).takeWhile (· ≠ least), ?_, ?_, hle⟩
    · rw [closedFromLeast, hleast, hafter]
      rfl
    · -- What stands before the least name is moved behind the rest.
      have hrotated : (first :: rest).dropWhile (· ≠ least) ++ (first :: rest).takeWhile (· ≠ least)
          ~r (first :: rest).takeWhile (· ≠ least) ++ (first :: rest).dropWhile (· ≠ least) :=
        List.isRotated_append
      rw [List.takeWhile_append_dropWhile, hafter] at hrotated
      exact hrotated

/-- Rings that are rotations of each other are the same ring from the same name on. -/
theorem Ring.eq_of_isRotated {least least' : String} {others others' : List String}
    (h : Ring definitions least others) (h' : Ring definitions least' others')
    (hrotated : (least :: others) ~r (least' :: others')) :
    least :: others = least' :: others' := by
  have hleast : least = least' := by
    apply String.le_antisymm
    · exact h.least_le least' (hrotated.mem_iff.2 List.mem_cons_self)
    · exact h'.least_le least (hrotated.mem_iff.1 List.mem_cons_self)
  subst hleast
  obtain ⟨n, hn, hturned⟩ := List.isRotated_iff_mod.1 hrotated
  rcases Nat.eq_or_lt_of_le hn with heq | hlt
  · rw [← hturned, heq, List.rotate_length]
  · -- A turn by less than the whole ring would bring another name to the front.
    have hhead : (least :: others)[n]? = (least :: others)[0]? := by
      rw [← List.head?_rotate hlt, hturned]
      rfl
    have hzero : n = 0 := (List.getElem?_inj hlt h.distinct).1 hhead
    rw [← hturned, hzero, List.rotate_zero]

/-- Every name of a ring can be reached from itself. -/
theorem Ring.reaches_itself {least : String} {others : List String}
    (h : Ring definitions least others) {name : String} (hname : name ∈ least :: others) :
    Relation.TransGen definitions.LiveChild name name := by
  have hreaches : (least :: (others ++ [least])).Pairwise
      (Relation.TransGen definitions.LiveChild) := h.live.reaches
  obtain ⟨hfrom, hrest⟩ := List.pairwise_cons.1 hreaches
  have hto := (List.pairwise_append.1 hrest).2.2
  rcases List.mem_cons.1 hname with rfl | hmem
  · exact hfrom name (List.mem_append_right others List.mem_cons_self)
  · exact (hto name hmem least List.mem_cons_self).trans
      (hfrom name (List.mem_append_left _ hmem))

/-! ## Names above a cycle -/

/-- No limit is enough for a name from which a cycle can be reached. -/
theorem exceeds_of_cycle {name target : String}
    (hreach : Relation.ReflTransGen definitions.LiveChild name target)
    (hcycle : Relation.TransGen definitions.LiveChild target target) (limit : Nat) :
    definitions.Exceeds limit name := by
  rintro tree rfl hunfolded
  exact absurd hcycle (hunfolded.acyclic_below hreach)

theorem Session.resolve_eq_empty {limit : Nat} {session : Session} {name : String}
    (hsound : session.Sound definitions) (h : definitions.Exceeds limit name) :
    (session.resolve definitions limit name).2.tree = .empty name :=
  (Session.resolve_standsFor limit name hsound).2.unique (.inr ⟨rfl, h⟩)

/-! ## Cycles on the path -/

theorem takeWhile_ne_prefix {path : List String} {name : String} (hmem : name ∈ path) :
    path.takeWhile (· ≠ name) ++ [name] <+: path := by
  obtain ⟨rest, hrest⟩ := exists_dropWhile_ne hmem
  have hsplit : path.takeWhile (· ≠ name) ++ path.dropWhile (· ≠ name) = path :=
    List.takeWhile_append_dropWhile
  rw [hrest, List.append_cons] at hsplit
  exact ⟨rest, hsplit⟩

/-- The names on the path since a name was met are distinct, and lead from it to it again. -/
theorem Entered.closed {path : List String} {name : String}
    (h : Entered definitions path name) (hmem : name ∈ path) :
    (name :: (path.takeWhile (· ≠ name)).reverse).Nodup ∧
      definitions.LivePath (name :: (path.takeWhile (· ≠ name)).reverse ++ [name]) := by
  have hprefix := takeWhile_ne_prefix hmem
  generalize path.takeWhile (· ≠ name) = since at hprefix
  -- The path lists its names backwards: those since the name was met come before it.
  have hreverse : (name :: since.reverse) = (since ++ [name]).reverse := by
    rw [List.reverse_append]
    rfl
  constructor
  · rw [hreverse, List.nodup_reverse]
    exact h.distinct.sublist hprefix.sublist
  · have hleads : LeadsTo definitions (since ++ [name]) name :=
      List.IsChain.prefix h.leads ((List.prefix_cons_inj name).2 hprefix)
    rw [hreverse]
    exact hleads.live

/-- A cycle that closes on a path is a ring, written from its least name on. -/
theorem Entered.ring {path : List String} {name : String} (h : Entered definitions path name)
    (hmem : name ∈ path) :
    ∃ least others, cycleThrough name path = least :: others ++ [least] ∧
      Ring definitions least others := by
  obtain ⟨hdistinct, hlive⟩ := h.closed hmem
  obtain ⟨least, others, hclosed, hrotated, hle⟩ :=
    closedFromLeast_eq (List.cons_ne_nil name (path.takeWhile (· ≠ name)).reverse)
  refine ⟨least, others, hclosed, ?_, ?_, ?_⟩
  · exact hrotated.nodup_iff.2 hdistinct
  · intro other hother
    exact hle other (hrotated.mem_iff.1 hother)
  · -- Where a ring is entered makes no difference to who combines whom.
    have hchain := (Cycle.chain_coe_cons definitions.LiveChild name _).2 hlive
    rw [← Cycle.coe_eq_coe.2 hrotated, Cycle.chain_coe_cons] at hchain
    exact hchain

theorem Recorded.ring {limit : Nat} {cycle : List String}
    (h : Recorded definitions limit (.circularReference cycle)) :
    ∃ least others, cycle = least :: others ++ [least] ∧ Ring definitions least others := by
  obtain ⟨path, name, hentered, hmem, rfl⟩ := h.of_circular
  exact hentered.ring hmem

theorem mem_of_mem_closed {least : String} {others : List String} {name : String}
    (h : name ∈ least :: others ++ [least]) : name ∈ least :: others := by
  rcases List.mem_append.1 h with hmem | hlast
  · exact hmem
  · rw [List.mem_singleton.1 hlast]
    exact List.mem_cons_self

/-! ## Main result -/

/-- Every cycle that a session reports is one: its path leads from its least name along declared and
distinct names, each combining the next, back to that name, and all of these names are empty however
they are resolved.  Two reports of a session never go around the same cycle. -/
theorem reported_cycles_are_rings (definitions : Definitions) (limit : Nat)
    (names : List String) :
    let findings := (Session.resolveAll definitions limit {} names).1.findings
    (∀ path, .circularReference path ∈ findings →
      ∃ least others, path = least :: others ++ [least] ∧ (least :: others).Nodup ∧
        (∀ name ∈ path, least ≤ name) ∧ (∀ name ∈ path, definitions.declares name = true) ∧
          definitions.LivePath path ∧
            ∀ name ∈ path, ∀ (anyLimit : Nat) (history : List String),
              ((Session.resolveAll definitions anyLimit {} history).1.resolve
                definitions anyLimit name).2.tree = .empty name) ∧
    findings.Pairwise fun finding other => ∀ path path',
      finding = .circularReference path → other = .circularReference path' →
        ¬ path.dropLast ~r path'.dropLast := by
  intro findings
  have hrings (path : List String) (hpath : .circularReference path ∈ findings) :
      ∃ least others, path = least :: others ++ [least] ∧ Ring definitions least others :=
    (recorded_of_mem_resolveAll hpath).ring
  constructor
  · intro path hpath
    obtain ⟨least, others, rfl, hring⟩ := hrings path hpath
    have hcycle (name : String) (hname : name ∈ least :: others ++ [least]) :
        Relation.TransGen definitions.LiveChild name name :=
      hring.reaches_itself (mem_of_mem_closed hname)
    refine ⟨least, others, rfl, hring.distinct, ?_, ?_, hring.live, ?_⟩
    · intro name hname
      exact hring.least_le name (mem_of_mem_closed hname)
    · intro name hname
      exact declares_of_reaches (hcycle name hname)
    · intro name hname anyLimit history
      have hnew : ({} : Session).Sound definitions := Session.keeps_new
      have hsound := (Session.resolveAll_eq anyLimit history hnew).1
      exact Session.resolve_eq_empty hsound (exceeds_of_cycle .refl (hcycle name hname) anyLimit)
  · have hnodup : findings.Nodup :=
      (Session.resolveAll_steps definitions limit {} names).findings_nodup List.nodup_nil
    -- Rotations of one cycle have one path, and that is reported once.
    refine hnodup.imp_of_mem fun hfinding hother hne path path' heq heq' hrotated => ?_
    subst heq heq'
    obtain ⟨least', others', rfl, hring'⟩ := hrings path' hother
    obtain ⟨least, others, rfl, hring⟩ := hrings path hfinding
    rw [List.dropLast_concat, List.dropLast_concat] at hrotated
    have hsame := hring.eq_of_isRotated hring' hrotated
    obtain ⟨rfl, rfl⟩ := List.cons.inj hsame
    exact hne rfl

/-- Two conditions that negate each other. -/
def blueAndGreen : Definitions :=
  [("Blue", Definition.combinationToJson .not ["Green"]),
    ("Green", Definition.combinationToJson .not ["Blue"])]

/-- The cycle is entered by its second name, and reported from its first. -/
theorem reported_cycle_blueAndGreen :
    let findings := (Session.resolveAll blueAndGreen 64 {} ["Green"]).1.findings
    .circularReference ["Blue", "Green", "Blue"] ∈ findings ∧
      blueAndGreen.LivePath ["Blue", "Green", "Blue"] := by
  intro findings
  have hsession : (Session.resolveAll blueAndGreen 64 {} ["Green"]).1 =
      ({} : Session).report (.circularReference ["Blue", "Green", "Blue"]) := rfl
  have hmem : .circularReference ["Blue", "Green", "Blue"] ∈ findings := by
    show _ ∈ (Session.resolveAll blueAndGreen 64 {} ["Green"]).1.findings
    rw [hsession]
    exact Session.mem_findings_report.2 (.inr rfl)
  have hreported := (reported_cycles_are_rings blueAndGreen 64 ["Green"]).1 _ hmem
  obtain ⟨_, _, _, _, _, _, hlive, _⟩ := hreported
  exact ⟨hmem, hlive⟩

end TemplateConditions
