import TemplateConditions.Proofs.Condition.Scenarios
import TemplateConditions.Proofs.Text.Bytes

/-!
# How influence maps are listed

The map of a condition has an entry for each token that some leaf compares, with the values that it
is compared with there.  The tokens ascend, and so do the values of each token, the literals before
the references; no entry is without a value.  Which map a condition has is told by its tree alone.
-/

namespace TemplateConditions

/-! ## Order -/

/-- The first token has the smaller bytes. -/
def Token.Precedes (a b : Token) : Prop :=
  Text.utf8 a.hex < Text.utf8 b.hex

/-- Literals come before references; of two of a kind the one with the smaller bytes is first. -/
def Comparand.Precedes : Comparand → Comparand → Prop
  | .literal a, .literal b => Text.utf8 a < Text.utf8 b
  | .literal _, .reference _ => True
  | .reference _, .literal _ => False
  | .reference a, .reference b => a.Precedes b

theorem Token.compare_eq_lt_iff {a b : Token} : compare a b = .lt ↔ a.Precedes b :=
  Text.compare_eq_lt_iff

theorem Comparand.compare_eq (a b : Comparand) :
    compare a b = (compare a.rank b.rank).then (compare a.content b.content) := rfl

theorem Comparand.compare_eq_lt_iff {a b : Comparand} : compare a b = .lt ↔ a.Precedes b := by
  rw [compare_eq]
  cases a with
  | literal s =>
    cases b with
    | literal t => exact Text.compare_eq_lt_iff
    | reference t => exact iff_of_true rfl trivial
  | reference s =>
    cases b with
    | literal t =>
      have hafter : compare (reference s).rank (literal t).rank = .gt := rfl
      rw [hafter]
      exact iff_of_false (by simp) id
    | reference t => exact Text.compare_eq_lt_iff

/-! ## Entries -/

namespace Influence

theorem pairwise_comparandsOf {clauses : List Clause}
    (h : clauses.Pairwise fun a b => compare a b = .lt) (token : Token) :
    (comparandsOf token clauses).Pairwise fun a b => compare a b = .lt := by
  rw [comparandsOf, List.pairwise_map, List.pairwise_filter]
  refine h.imp fun {a b} hlt ha hb => ?_
  -- The subjects are the same, so it is the comparands that ascend.
  have hsubject : a.subject = b.subject := (of_decide_eq_true ha).trans (of_decide_eq_true hb).symm
  rw [Clause.compare_eq, hsubject, Std.compare_self] at hlt
  exact hlt

/-- What is found under a token is what the entry of the token holds, if no other has that token. -/
theorem valuesAt_eq_some_iff {groups : List (Token × List Comparand)}
    (h : (groups.map Prod.fst).Nodup) {token : Token} {values : List Comparand} :
    valuesAt token groups = some values ↔ (token, values) ∈ groups := by
  induction groups with
  | nil => exact iff_of_false (Option.some_ne_none values).symm List.not_mem_nil
  | cons entry rest ih =>
    obtain ⟨first, others⟩ := entry
    obtain ⟨hfirst, hrest⟩ := List.nodup_cons.1 h
    rw [List.mem_cons, Prod.mk.injEq]
    by_cases htoken : first = token
    · subst htoken
      have hnot : (first, values) ∉ rest := fun hmem =>
        hfirst (List.mem_map.2 ⟨_, hmem, rfl⟩)
      rw [valuesAt_cons_self, Option.some.injEq, or_iff_left hnot, and_iff_right rfl, eq_comm]
    · rw [valuesAt_cons_of_ne htoken, ih hrest, or_iff_right fun heq => htoken heq.1.symm]

theorem nodup_tokens (map : Influence) : map.tokens.Nodup := by
  refine map.pairwise_tokens.imp fun {a b} hlt heq => ?_
  rw [heq, Std.compare_self] at hlt
  exact absurd hlt (by decide)

theorem mem_entries {map : Influence} {token : Token} {values : List Comparand} :
    (token, values) ∈ map.entries ↔ map.get? token = some values :=
  (valuesAt_eq_some_iff map.nodup_tokens).symm

/-- An entry holds the comparands of its token, at least one of them. -/
theorem eq_comparandsOf_of_mem_entries {map : Influence} {token : Token}
    {values : List Comparand} (h : (token, values) ∈ map.entries) :
    values ≠ [] ∧ values = comparandsOf token map.clauses.elements := by
  rw [mem_entries, get?_eq] at h
  split at h
  · exact absurd h (by simp)
  · rename_i hne
    obtain rfl := Option.some.inj h
    exact ⟨hne, rfl⟩

theorem pairwise_of_mem_entries {map : Influence} {token : Token} {values : List Comparand}
    (h : (token, values) ∈ map.entries) : values.Pairwise Comparand.Precedes := by
  rw [(eq_comparandsOf_of_mem_entries h).2]
  exact (pairwise_comparandsOf map.clauses.ascending token).imp Comparand.compare_eq_lt_iff.1

/-- The entries of the map are the comparisons of the tree, in order and each once. -/
structure Lists (map : Influence) (tree : Condition) : Prop where
  mem_iff : ∀ token value, (∃ values, map.get? token = some values ∧ value ∈ values) ↔
    ∃ name, (Condition.equals name ⟨token, value⟩).IsNode tree
  entry_iff : ∀ token values, (token, values) ∈ map.entries ↔ map.get? token = some values
  tokens_ascend : map.tokens.Pairwise Token.Precedes
  values_ascend : ∀ token values, (token, values) ∈ map.entries → values.Pairwise Comparand.Precedes
  values_ne_nil : ∀ token values, (token, values) ∈ map.entries → values ≠ []

/-- The clauses of a map are in order, so that the map of a tree lists it. -/
theorem lists_influence (tree : Condition) : tree.influence.Lists tree where
  mem_iff _ _ := exists_get?_iff.trans Condition.mem_influence_iff
  entry_iff _ _ := mem_entries
  tokens_ascend := tree.influence.pairwise_tokens.imp Token.compare_eq_lt_iff.1
  values_ascend _ _ h := pairwise_of_mem_entries h
  values_ne_nil _ _ h := (eq_comparandsOf_of_mem_entries h).1

end Influence

/-! ## Conditions of one kind -/

namespace Condition

/-- The conditions differ in nothing but their names. -/
inductive SameKind : Condition → Condition → Prop
  | equals (name other : String) (clause : Clause) :
    SameKind (.equals name clause) (.equals other clause)
  | and (name other : String) (children : List Condition) :
    SameKind (.and name children) (.and other children)
  | or (name other : String) (children : List Condition) :
    SameKind (.or name children) (.or other children)
  | not (name other : String) (child : Condition) : SameKind (.not name child) (.not other child)
  | empty (name other : String) : SameKind (.empty name) (.empty other)

theorem SameKind.eq_of_name {a b : Condition} (h : a.SameKind b) (hname : a.name = b.name) :
    a = b := by
  cases h with
  | equals name other clause => exact congrArg (Condition.equals · clause) hname
  | and name other children => exact congrArg (Condition.and · children) hname
  | or name other children => exact congrArg (Condition.or · children) hname
  | not name other child => exact congrArg (Condition.not · child) hname
  | empty name other => exact congrArg Condition.empty hname

end Condition

/-- The map that a condition carries lists the comparisons of its tree.  So a condition is known by
its name and its kind, and a negation carries the map of what it negates. -/
theorem influence_lists_comparisons (condition : Resolved) :
    condition.influence.Lists condition.tree ∧
    (∀ other : Resolved, condition.tree.name = other.tree.name →
      condition.tree.SameKind other.tree → condition = other) ∧
    ∀ (name : String) (child : Resolved), condition.tree = .not name child.tree →
      condition.influence = child.influence := by
  refine ⟨?_, ?_, ?_⟩
  · rw [condition.influence_eq]
    exact Influence.lists_influence condition.tree
  · intro other hname hkind
    exact Resolved.ext_tree (hkind.eq_of_name hname)
  · intro name child htree
    rw [condition.influence_eq, htree, child.influence_eq, Condition.influence]

/-- A condition with a literal and a reference behind one token, and its negation. -/
theorem influence_negated_pair :
    let stage : Token := ⟨"stage"⟩
    let zone : Token := ⟨"zone"⟩
    let both := Resolved.combine "Both" .and
      [.equals "SameZone" ⟨stage, .reference zone⟩, .equals "Prod" ⟨stage, .literal "prod"⟩]
    let negated := Resolved.combine "Neither" .not [both]
    both.influence.entries = [(stage, [.literal "prod", .reference zone])] ∧
      [Comparand.literal "prod", .reference zone].Pairwise Comparand.Precedes ∧
      negated.influence = both.influence ∧
      negated = ⟨.not "Neither" both.tree, both.influence, negated.influence_eq⟩ := by
  intro stage zone both negated
  have hentries : both.influence.entries = [(stage, [.literal "prod", .reference zone])] := by
    decide
  have hmem : (stage, [.literal "prod", .reference zone]) ∈ both.influence.entries := by
    rw [hentries]
    exact List.mem_singleton_self _
  refine ⟨hentries, ?_, ?_, ?_⟩
  · exact (influence_lists_comparisons both).1.values_ascend stage _ hmem
  · exact (influence_lists_comparisons negated).2.2 "Neither" both rfl
  · exact (influence_lists_comparisons negated).2.1 _ rfl (.not _ _ _)

end TemplateConditions
