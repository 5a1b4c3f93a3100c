import Mathlib.Data.List.Induction
import Mathlib.Data.List.Nodup
import TemplateConditions.Proofs.Ordered.Lookup

/-!
# Entries put in order

Inserting entries one after the other keeps for each key the value that it was given last, and the
result is known by what is found in it.  So entries with different keys may be inserted in any
order.
-/

namespace TemplateConditions.Ordered

variable {κ α : Type}

/-! ## Last values -/

section

variable [DecidableEq κ]

/-- The value that the entries give a key last. -/
def last? (key : κ) : List (κ × α) → Option α
  | [] => none
  | (other, value) :: rest => (last? key rest).or (if key = other then some value else none)

/-- Something comes last exactly at the keys. -/
theorem last?_isSome (key : κ) (entries : List (κ × α)) :
    (last? key entries).isSome = true ↔ key ∈ entries.map Prod.fst := by
  induction entries with
  | nil => exact iff_of_false Bool.false_ne_true List.not_mem_nil
  | cons entry rest ih =>
    rw [last?, Option.isSome_or, Bool.or_eq_true, ih, List.map_cons, List.mem_cons, or_comm]
    by_cases h : key = entry.1
    · simp [h]
    · simp [h]

theorem last?_eq_none {key : κ} {entries : List (κ × α)} (h : key ∉ entries.map Prod.fst) :
    last? key entries = none := by
  rw [← last?_isSome, Option.not_isSome_iff_eq_none] at h
  exact h

theorem last?_append (key : κ) (front back : List (κ × α)) :
    last? key (front ++ back) = (last? key back).or (last? key front) := by
  induction front with
  | nil => rw [List.nil_append, last?, Option.or_none]
  | cons entry rest ih => rw [List.cons_append, last?, ih, last?, Option.or_assoc]

/-- The last value of a key stands in an entry behind which the key comes no more. -/
theorem last?_eq_some_iff_append {entries : List (κ × α)} {key : κ} {value : α} :
    last? key entries = some value ↔
      ∃ front back, entries = front ++ (key, value) :: back ∧ ∀ entry ∈ back, entry.1 ≠ key := by
  constructor
  · intro h
    -- From the back, so that the first entry with the key is the one.
    induction entries using List.reverseRecOn with
    | nil => exact absurd h (by simp [last?])
    | append_singleton front entry ih =>
      obtain ⟨other, newest⟩ := entry
      rw [last?_append, last?, last?, Option.none_or] at h
      by_cases hkey : key = other
      · rw [if_pos hkey, Option.some_or, Option.some.injEq] at h
        rw [hkey, h]
        exact ⟨front, [], rfl, fun _ hentry => absurd hentry List.not_mem_nil⟩
      · rw [if_neg hkey, Option.none_or] at h
        obtain ⟨before, back, rfl, hback⟩ := ih h
        refine ⟨before, back ++ [(other, newest)], by simp, fun entry hentry => ?_⟩
        rcases List.mem_append.1 hentry with hold | hnew
        · exact hback entry hold
        · rw [List.mem_singleton.1 hnew]
          exact Ne.symm hkey
  · rintro ⟨front, back, rfl, hback⟩
    have hnone : last? key back = none := by
      apply last?_eq_none
      intro hmem
      obtain ⟨entry, hentry, heq⟩ := List.mem_map.1 hmem
      exact hback entry hentry heq
    rw [last?_append, last?, hnone, if_pos rfl, Option.none_or, Option.some_or]

/-- Where no key comes twice, its only entry is its last one. -/
theorem last?_eq_some_iff {entries : List (κ × α)} (hkeys : (entries.map Prod.fst).Nodup)
    {key : κ} {value : α} : last? key entries = some value ↔ (key, value) ∈ entries := by
  induction entries with
  | nil => simp [last?]
  | cons entry rest ih =>
    obtain ⟨other, first⟩ := entry
    obtain ⟨hother, hrest⟩ := List.nodup_cons.1 hkeys
    rw [last?, List.mem_cons, Prod.mk.injEq, ← ih hrest]
    by_cases h : key = other
    · -- The key is met for the only time.
      subst h
      rw [last?_eq_none hother, if_pos rfl]
      simp [eq_comm]
    · rw [if_neg h, Option.or_none]
      simp [h]

/-- What entries with different keys give last does not depend on their order. -/
theorem last?_congr {entries others : List (κ × α)} (h : entries.Perm others)
    (hkeys : (entries.map Prod.fst).Nodup) (key : κ) : last? key entries = last? key others := by
  have hkeys' : (others.map Prod.fst).Nodup := (h.map Prod.fst).nodup_iff.1 hkeys
  ext value
  rw [last?_eq_some_iff hkeys, last?_eq_some_iff hkeys', h.mem_iff]

end

variable [Ord κ] [Std.LawfulEqOrd κ]

section

variable [DecidableEq κ]

/-- What is inserted later hides what was there before. -/
theorem find?_foldl_insert (key : κ) (entries start : List (κ × α)) :
    find? key (entries.foldl (fun built entry => insert entry.1 entry.2 built) start) =
      (last? key entries).or (find? key start) := by
  induction entries generalizing start with
  | nil => rfl
  | cons entry rest ih =>
    rw [List.foldl_cons, ih, find?_insert, last?, Option.or_assoc]
    by_cases h : key = entry.1
    · rw [if_pos h, if_pos h, Option.some_or]
    · rw [if_neg h, if_neg h, Option.none_or]

theorem find?_ofEntries (key : κ) (entries : List (κ × α)) :
    find? key (ofEntries entries) = last? key entries := by
  rw [ofEntries, find?_foldl_insert, find?_nil, Option.or_none]

/-- Where no key comes twice, its last value is the one that is found. -/
theorem last?_eq_find? {entries : List (κ × α)} (hkeys : (entries.map Prod.fst).Nodup)
    (key : κ) : last? key entries = find? key entries := by
  induction entries with
  | nil => rfl
  | cons entry rest ih =>
    obtain ⟨other, value⟩ := entry
    obtain ⟨hother, hrest⟩ := List.nodup_cons.1 hkeys
    rw [last?, find?_cons]
    by_cases h : key = other
    · subst h
      rw [last?_eq_none hother, if_pos rfl, if_pos rfl, Option.none_or]
    · rw [if_neg h, if_neg h, Option.or_none, ih hrest]

end

/-! ## Ascending entries -/

theorem Ascending.nodup_keys {entries : List (κ × α)} (h : Ascending entries) :
    (entries.map Prod.fst).Nodup := by
  refine List.pairwise_map.2 (List.Pairwise.imp (fun hlt heq => ?_) h)
  rw [heq, Std.compare_self] at hlt
  exact absurd hlt (by decide)

variable [Std.TransOrd κ]

omit [Std.LawfulEqOrd κ] in
theorem ascending_ofEntries (entries : List (κ × α)) : Ascending (ofEntries entries) := by
  -- Insertion keeps the order, from the empty list on.
  have hfold : ∀ start : List (κ × α), Ascending start →
      Ascending (entries.foldl (fun built entry => insert entry.1 entry.2 built) start) := by
    induction entries with
    | nil => exact fun start h => h
    | cons entry rest ih => exact fun start h => ih _ (ascending_insert h)
  exact hfold [] List.Pairwise.nil

omit [Std.LawfulEqOrd κ] [Std.TransOrd κ] in
theorem mem_of_mem_ofEntries {entries : List (κ × α)} {entry : κ × α}
    (h : entry ∈ ofEntries entries) : entry ∈ entries := by
  have hfold : ∀ (others start : List (κ × α)),
      entry ∈ others.foldl (fun built entry => insert entry.1 entry.2 built) start →
        entry ∈ others ∨ entry ∈ start := by
    intro others
    induction others with
    | nil => exact fun start h => .inr h
    | cons other rest ih =>
      intro start h
      rcases ih _ h with hrest | hbuilt
      · exact .inl (List.mem_cons_of_mem other hrest)
      · rcases mem_insert hbuilt with rfl | hstart
        · exact .inl List.mem_cons_self
        · exact .inr hstart
  exact (hfold entries [] h).resolve_right List.not_mem_nil

variable [DecidableEq κ]

/-- Ascending entries are known by what is found in them. -/
theorem Ascending.ext {entries others : List (κ × α)} (h : Ascending entries)
    (h' : Ascending others) (hfind : ∀ key, find? key entries = find? key others) :
    entries = others := by
  have hmem : ∀ entry, entry ∈ entries ↔ entry ∈ others := by
    rintro ⟨key, value⟩
    rw [← last?_eq_some_iff h.nodup_keys, ← last?_eq_some_iff h'.nodup_keys,
      last?_eq_find? h.nodup_keys, last?_eq_find? h'.nodup_keys, hfind]
  have hperm : entries.Perm others :=
    (List.perm_ext_iff_of_nodup h.nodup_keys.of_map h'.nodup_keys.of_map).2 hmem
  refine hperm.eq_of_pairwise (fun a b _ _ hab hba => ?_) h h'
  exact absurd hba (Std.OrientedCmp.not_lt_of_lt hab)

/-- Entries with different keys may be inserted in any order. -/
theorem ofEntries_congr {entries others : List (κ × α)} (h : entries.Perm others)
    (hkeys : (entries.map Prod.fst).Nodup) : ofEntries entries = ofEntries others := by
  refine (ascending_ofEntries entries).ext (ascending_ofEntries others) fun key => ?_
  rw [find?_ofEntries, find?_ofEntries, last?_congr h hkeys]

/-- Ascending entries come out as they are. -/
theorem ofEntries_eq_self {entries : List (κ × α)} (h : Ascending entries) :
    ofEntries entries = entries := by
  refine (ascending_ofEntries entries).ext h fun key => ?_
  rw [find?_ofEntries, last?_eq_find? h.nodup_keys]

/-- A map is known by what is found in it. -/
theorem Map.ext_get? {map other : Map κ α} (h : ∀ key, map.get? key = other.get? key) :
    map = other := by
  have hentries : map.entries = other.entries := map.ascending.ext other.ascending h
  cases map
  cases other
  cases hentries
  rfl

end TemplateConditions.Ordered
