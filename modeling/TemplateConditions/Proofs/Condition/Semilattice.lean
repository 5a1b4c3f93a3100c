import Mathlib.Order.BoundedOrder.Lattice
import TemplateConditions.Proofs.Condition.Listing

/-!
# Unions of influence maps

Influence maps are ordered by what they compare, and the union of two maps is the least one that has
the comparisons of both.  A map shows itself as a set of values for each token.  The same maps come
about if every operation works on such sets directly: the tokens and the values of each stay in
order, no set is ever empty, and two maps with the same pairs of token and value are the same.
-/

namespace TemplateConditions

namespace Influence

/-! ## The order of maps -/

/-- A map is below another one that has all of its comparisons. -/
instance : PartialOrder Influence where
  le a b := ∀ clause ∈ a.clauses, clause ∈ b.clauses
  le_refl _ _ h := h
  le_trans _ _ _ hab hbc clause h := hbc clause (hab clause h)
  le_antisymm _ _ hab hba := ext_mem fun clause => ⟨hab clause, hba clause⟩

instance : SemilatticeSup Influence where
  sup := merge
  le_sup_left _ _ _ h := mem_merge.2 (.inl h)
  le_sup_right _ _ _ h := mem_merge.2 (.inr h)
  sup_le _ _ _ ha hb clause h := (mem_merge.1 h).elim (ha clause) (hb clause)

instance : OrderBot Influence where
  bot := empty
  bot_le _ clause h := absurd h (not_mem_empty clause)

/-! ## Collected maps -/

@[simp] theorem mem_ofClauses {clauses : List Clause} {clause : Clause} :
    clause ∈ (ofClauses clauses).clauses ↔ clause ∈ clauses :=
  Ordered.Set.mem_ofList

@[simp] theorem mem_insert {map : Influence} {clause other : Clause} :
    other ∈ (map.insert clause).clauses ↔ other = clause ∨ other ∈ map.clauses :=
  Ordered.Set.mem_insert

theorem ofClauses_append (front back : List Clause) :
    ofClauses (front ++ back) = (ofClauses front).merge (ofClauses back) := by
  apply ext_mem
  intro clause
  rw [mem_ofClauses, mem_merge, mem_ofClauses, mem_ofClauses, List.mem_append]

/-- Only which comparisons are collected counts, not their order and not how often each comes. -/
theorem ofClauses_eq_iff {clauses others : List Clause} :
    ofClauses clauses = ofClauses others ↔ ∀ clause, clause ∈ clauses ↔ clause ∈ others := by
  constructor
  · intro h clause
    rw [← mem_ofClauses, h, mem_ofClauses]
  · intro h
    apply ext_mem
    intro clause
    rw [mem_ofClauses, mem_ofClauses, h]

/-- Collecting inserts the comparisons one after the other. -/
theorem ofClauses_eq_foldl (clauses : List Clause) :
    ofClauses clauses = clauses.foldl insert empty :=
  (List.foldl_hom Influence.mk fun _ _ => rfl).symm

/-! ## Sets of values by token -/

/-- Has the entry of a token the value? -/
def Pairs (entries : List (Token × List Comparand)) (token : Token) (value : Comparand) : Prop :=
  ∃ values, Ordered.find? token entries = some values ∧ value ∈ values

/-- Puts values into the set of their token, which is empty if there is none so far. -/
def addValues (entries : List (Token × List Comparand)) (entry : Token × List Comparand) :
    List (Token × List Comparand) :=
  Ordered.insert entry.1
    (entry.2.foldl (fun present value => Ordered.add value present)
      ((Ordered.find? entry.1 entries).getD []))
    entries

/-- Tokens ascend, and each of them has values, which ascend. -/
structure Grouped (entries : List (Token × List Comparand)) : Prop where
  tokens_ascend : (entries.map Prod.fst).Pairwise Token.Precedes
  values_ascend : ∀ entry ∈ entries, entry.2.Pairwise Comparand.Precedes
  values_ne_nil : ∀ entry ∈ entries, entry.2 ≠ []

section

variable {entries others : List (Token × List Comparand)} {token : Token} {value : Comparand}

theorem pairs_iff_mem_getD :
    Pairs entries token value ↔ value ∈ (Ordered.find? token entries).getD [] := by
  unfold Pairs
  cases Ordered.find? token entries with
  | none => simp
  | some values => simp

/-- The other tokens keep their values. -/
theorem pairs_addValues {entry : Token × List Comparand} :
    Pairs (addValues entries entry) token value ↔
      Pairs entries token value ∨ token = entry.1 ∧ value ∈ entry.2 := by
  rw [pairs_iff_mem_getD, pairs_iff_mem_getD, addValues, Ordered.find?_insert]
  by_cases htoken : token = entry.1
  · rw [if_pos htoken, Option.getD_some, Ordered.mem_foldl_add, htoken, and_iff_right rfl]
  · rw [if_neg htoken, or_iff_left (fun h => htoken h.1)]

theorem pairs_foldl_addValues {groups : List (Token × List Comparand)} :
    Pairs (groups.foldl addValues entries) token value ↔
      Pairs entries token value ∨ ∃ entry ∈ groups, token = entry.1 ∧ value ∈ entry.2 := by
  induction groups generalizing entries with
  | nil => simp
  | cons entry rest ih => rw [List.foldl_cons, ih, pairs_addValues, List.exists_mem_cons_iff, or_assoc]

theorem Grouped.ascending (h : Grouped entries) : Ordered.Ascending entries :=
  (List.pairwise_map.1 h.tokens_ascend).imp Token.compare_eq_lt_iff.2

theorem Grouped.mem_of_find? (h : Grouped entries) {values : List Comparand}
    (hfound : Ordered.find? token entries = some values) : (token, values) ∈ entries := by
  have hkeys := h.ascending.nodup_keys
  rw [← Ordered.last?_eq_find? hkeys] at hfound
  exact (Ordered.last?_eq_some_iff hkeys).1 hfound

theorem Grouped.pairwise_values (h : Grouped entries) {values : List Comparand}
    (hfound : Ordered.find? token entries = some values) :
    values.Pairwise fun a b => compare a b = .lt :=
  (h.values_ascend _ (h.mem_of_find? hfound)).imp Comparand.compare_eq_lt_iff.2

/-- The other entries have the token as well, since no set of values is empty. -/
theorem Grouped.exists_find? (h : Grouped entries)
    (hpairs : ∀ value, Pairs entries token value → Pairs others token value)
    {values : List Comparand} (hfound : Ordered.find? token entries = some values) :
    ∃ more, Ordered.find? token others = some more ∧ ∀ value ∈ values, value ∈ more := by
  have hentry := h.mem_of_find? hfound
  obtain ⟨first, hfirst⟩ := List.exists_mem_of_ne_nil _ (h.values_ne_nil _ hentry)
  obtain ⟨more, hmore, -⟩ := hpairs first ⟨values, hfound, hfirst⟩
  refine ⟨more, hmore, fun value hvalue => ?_⟩
  obtain ⟨same, hsame, hmem⟩ := hpairs value ⟨values, hfound, hvalue⟩
  rw [hmore] at hsame
  rwa [Option.some.inj hsame]

/-- Sets of values by token are known by their pairs. -/
theorem Grouped.ext (h : Grouped entries) (h' : Grouped others)
    (hpairs : ∀ token value, Pairs entries token value ↔ Pairs others token value) :
    entries = others := by
  apply h.ascending.ext h'.ascending
  intro token
  have hto := fun value => (hpairs token value).1
  have hfrom := fun value => (hpairs token value).2
  cases hfound : Ordered.find? token entries with
  | none =>
    cases hother : Ordered.find? token others with
    | none => rfl
    | some more =>
      obtain ⟨values, hvalues, -⟩ := h'.exists_find? hfrom hother
      rw [hfound] at hvalues
      exact absurd hvalues (by simp)
  | some values =>
    obtain ⟨more, hmore, hsub⟩ := h.exists_find? hto hfound
    obtain ⟨same, hsame, hsup⟩ := h'.exists_find? hfrom hmore
    rw [hfound] at hsame
    obtain rfl := Option.some.inj hsame
    -- Both sets ascend and have the same values.
    have heq : values = more := by
      apply Ordered.eq_of_mem_iff (h.pairwise_values hfound) (h'.pairwise_values hmore)
      exact fun value => ⟨hsub value, hsup value⟩
    rw [hmore, heq]

theorem Grouped.addValues {entry : Token × List Comparand} (h : Grouped entries)
    (hvalues : entry.2 ≠ []) : Grouped (addValues entries entry) where
  tokens_ascend :=
    List.pairwise_map.2 ((Ordered.ascending_insert h.ascending).imp Token.compare_eq_lt_iff.1)
  values_ascend := by
    intro other hother
    rcases Ordered.mem_insert hother with rfl | hold
    · have hstart : ((Ordered.find? entry.1 entries).getD []).Pairwise
          fun a b => compare a b = .lt := by
        cases hfound : Ordered.find? entry.1 entries with
        | none => exact List.Pairwise.nil
        | some values => exact h.pairwise_values hfound
      exact (Ordered.pairwise_foldl_add hstart).imp Comparand.compare_eq_lt_iff.1
    · exact h.values_ascend other hold
  values_ne_nil := by
    intro other hother
    rcases Ordered.mem_insert hother with rfl | hold
    · obtain ⟨first, hfirst⟩ := List.exists_mem_of_ne_nil _ hvalues
      exact List.ne_nil_of_mem (Ordered.mem_foldl_add.2 (.inr hfirst))
    · exact h.values_ne_nil other hold

theorem Grouped.foldl_addValues {groups : List (Token × List Comparand)} (h : Grouped entries)
    (hgroups : ∀ entry ∈ groups, entry.2 ≠ []) : Grouped (groups.foldl Influence.addValues entries) := by
  induction groups generalizing entries with
  | nil => exact h
  | cons entry rest ih =>
    obtain ⟨hentry, hrest⟩ := List.forall_mem_cons.1 hgroups
    exact ih (h.addValues hentry) hrest

end

/-! ## Maps as sets of values by token -/

theorem find?_entries (map : Influence) (token : Token) :
    Ordered.find? token map.entries = map.get? token := by
  show _ = valuesAt token map.entries
  induction map.entries with
  | nil => rfl
  | cons entry rest ih =>
    obtain ⟨other, values⟩ := entry
    rw [Ordered.find?_cons]
    by_cases h : token = other
    · rw [if_pos h, h, valuesAt_cons_self]
    · rw [if_neg h, valuesAt_cons_of_ne (Ne.symm h), ih]

theorem pairs_entries {map : Influence} {token : Token} {value : Comparand} :
    Pairs map.entries token value ↔ (⟨token, value⟩ : Clause) ∈ map.clauses := by
  unfold Pairs
  rw [find?_entries]
  exact exists_get?_iff

theorem grouped_entries (map : Influence) : Grouped map.entries where
  tokens_ascend := map.pairwise_tokens.imp Token.compare_eq_lt_iff.1
  values_ascend _ hentry := pairwise_of_mem_entries hentry
  values_ne_nil _ hentry := (eq_comparandsOf_of_mem_entries hentry).1

/-- Equal entries are equal maps, as both have the same pairs. -/
theorem entries_injective : Function.Injective entries := by
  intro a b h
  apply ext_mem
  rintro ⟨token, value⟩
  rw [← pairs_entries, h, pairs_entries]

theorem entries_insert (map : Influence) (clause : Clause) :
    (map.insert clause).entries = addValues map.entries (clause.subject, [clause.comparand]) := by
  apply (grouped_entries _).ext ((grouped_entries map).addValues (List.cons_ne_nil _ _))
  intro token value
  rw [pairs_entries, mem_insert, pairs_addValues, pairs_entries, List.mem_singleton, or_comm,
    Clause.mk.injEq]

theorem entries_merge (a b : Influence) :
    (a.merge b).entries = b.entries.foldl addValues a.entries := by
  have hgrouped := (grouped_entries a).foldl_addValues (grouped_entries b).values_ne_nil
  apply (grouped_entries _).ext hgrouped
  intro token value
  rw [pairs_entries, mem_merge, pairs_foldl_addValues, pairs_entries, ← @pairs_entries b]
  apply or_congr_right
  -- A pair of the second map stands in its entry of that token.
  constructor
  · rintro ⟨values, hfound, hvalue⟩
    exact ⟨_, (grouped_entries b).mem_of_find? hfound, rfl, hvalue⟩
  · rintro ⟨⟨other, values⟩, hentry, rfl, hvalue⟩
    refine ⟨values, ?_, hvalue⟩
    rw [find?_entries, ← mem_entries]
    exact hentry

theorem entries_ofClauses (clauses : List Clause) :
    (ofClauses clauses).entries = clauses.foldl
      (fun entries clause => addValues entries (clause.subject, [clause.comparand])) [] := by
  rw [ofClauses_eq_foldl]
  exact (List.foldl_hom entries fun map clause => (entries_insert map clause).symm).symm

/-! ## Main result -/

/-- Unions of influence maps are a semilattice, in which what is collected from comparisons is told
by the comparisons alone.  Seen as sets of values by token, the operations add to the sets; every
map is in order and without an empty set, and it is known by its pairs of token and value. -/
theorem merge_laws_and_canonical_form :
    ((∀ a b c : Influence, (a.merge b).merge c = a.merge (b.merge c)) ∧
      (∀ a b : Influence, a.merge b = b.merge a) ∧
      (∀ a : Influence, a.merge a = a) ∧
      ∀ a : Influence, empty.merge a = a ∧ a.merge empty = a) ∧
    ((∀ front back, ofClauses (front ++ back) = (ofClauses front).merge (ofClauses back)) ∧
      (∀ clauses others, ofClauses clauses = ofClauses others ↔
        ∀ clause, clause ∈ clauses ↔ clause ∈ others) ∧
      ∀ map : Influence, ofClauses map.clauses.elements = map) ∧
    (empty.entries = [] ∧
      (∀ (map : Influence) (clause : Clause), (map.insert clause).entries =
        addValues map.entries (clause.subject, [clause.comparand])) ∧
      (∀ a b : Influence, (a.merge b).entries = b.entries.foldl addValues a.entries) ∧
      ∀ clauses, (ofClauses clauses).entries = clauses.foldl
        (fun entries clause => addValues entries (clause.subject, [clause.comparand])) []) ∧
    ((∀ map : Influence, Grouped map.entries) ∧
      (∀ (map : Influence) (token : Token), map.get? token ≠ some []) ∧
      (∀ a b : Influence, a = b ↔ a.entries = b.entries) ∧
      ∀ a b : Influence, a = b ↔ ∀ token value,
        (∃ values, a.get? token = some values ∧ value ∈ values) ↔
          ∃ values, b.get? token = some values ∧ value ∈ values) := by
  refine ⟨⟨?_, ?_, ?_, ?_⟩, ⟨ofClauses_append, fun _ _ => ofClauses_eq_iff, ?_⟩,
    ⟨rfl, entries_insert, entries_merge, entries_ofClauses⟩, grouped_entries, ?_, ?_, ?_⟩
  · exact fun a b c => sup_assoc a b c
  · exact fun a b => sup_comm a b
  · exact fun a => sup_idem a
  · exact fun a => ⟨bot_sup_eq a, sup_bot_eq a⟩
  · intro map
    apply ext_mem
    intro clause
    exact mem_ofClauses
  · intro map token hnil
    have hentry : (token, []) ∈ map.entries := mem_entries.2 hnil
    exact (grouped_entries map).values_ne_nil _ hentry rfl
  · exact fun a b => entries_injective.eq_iff.symm
  · intro a b
    constructor
    · rintro rfl token value
      exact Iff.rfl
    · intro h
      apply ext_mem
      rintro ⟨token, value⟩
      rw [← exists_get?_iff, h, exists_get?_iff]

/-- A token that both maps have keeps one set of values. -/
example :
    let region : Token := ⟨"region"⟩
    let stage : Token := ⟨"stage"⟩
    ((ofClauses [⟨stage, .literal "prod"⟩, ⟨region, .literal "west"⟩]).merge
      (ofClauses [⟨region, .literal "east"⟩, ⟨region, .literal "west"⟩])).entries =
      [(region, [.literal "east", .literal "west"]), (stage, [.literal "prod"])] := by
  decide

end Influence

end TemplateConditions
