import Mathlib.Data.List.Dedup
import TemplateConditions.Proofs.Ordered.Entries

/-!
# Rearranged entries

A map that is collected from a list of entries has for each key the value of its last entry, and as
many entries as there are different keys.  So only the order of the entries of one key matters, and
lists that interleave them in different ways are collected to the same map.
-/

namespace TemplateConditions.Ordered

variable {κ α : Type} [DecidableEq κ]

/-! ## Entries of one key -/

/-- Under every key the lists have the same entries in the same order. -/
def Rearranges (entries others : List (κ × α)) : Prop :=
  ∀ key, (entries.filter fun entry => entry.1 = key) = others.filter fun entry => entry.1 = key

variable {entries others : List (κ × α)}

/-- Neighbours with different keys may change places. -/
theorem rearranges_swap {entry other : κ × α} (h : entry.1 ≠ other.1)
    (front back : List (κ × α)) :
    Rearranges (front ++ entry :: other :: back) (front ++ other :: entry :: back) := by
  intro key
  rw [List.filter_append, List.filter_append]
  congr 1
  -- At most one of the two entries has the key, and so stays where the lists are compared.
  by_cases hentry : entry.1 = key
  · have hother : other.1 ≠ key := fun heq => h (hentry.trans heq.symm)
    rw [List.filter_cons_of_pos (by simpa using hentry),
      List.filter_cons_of_neg (by simpa using hother),
      List.filter_cons_of_neg (by simpa using hother),
      List.filter_cons_of_pos (by simpa using hentry)]
  · rw [List.filter_cons_of_neg (by simpa using hentry), List.filter_cons, List.filter_cons,
      List.filter_cons_of_neg (by simpa using hentry)]

/-- No entry is lost or doubled. -/
theorem Rearranges.perm [DecidableEq α] (h : Rearranges entries others) :
    entries.Perm others := by
  refine List.perm_iff_count.2 fun entry => ?_
  -- An entry is counted among those of its key.
  have hcount : ∀ list : List (κ × α),
      (list.filter fun other => other.1 = entry.1).count entry = list.count entry := fun list =>
    List.count_filter (p := fun other : κ × α => decide (other.1 = entry.1)) (decide_eq_true rfl)
  rw [← hcount entries, h entry.1, hcount others]

/-- The last value of a key is that of its last entry. -/
theorem last?_eq_getLast? (key : κ) (entries : List (κ × α)) :
    last? key entries = (entries.filter fun entry => entry.1 = key).getLast?.map Prod.snd := by
  induction entries using List.reverseRecOn with
  | nil => rfl
  | append_singleton front entry ih =>
    rw [last?_append, last?, last?, Option.none_or, List.filter_append]
    by_cases h : entry.1 = key
    · rw [if_pos h.symm, List.filter_cons_of_pos (by simpa using h), List.filter_nil,
        List.getLast?_concat, Option.some_or, Option.map_some]
    · rw [if_neg (Ne.symm h), List.filter_cons_of_neg (by simpa using h), List.filter_nil,
        List.append_nil, Option.none_or, ih]

theorem Rearranges.last?_eq (h : Rearranges entries others) (key : κ) :
    last? key entries = last? key others := by
  rw [last?_eq_getLast?, last?_eq_getLast?, h key]

/-! ## Collected maps -/

namespace Map

variable [Ord κ] [Std.TransOrd κ]

omit [DecidableEq κ] in
theorem entries_ofList (pairs : List (κ × α)) :
    (ofList pairs : Map κ α).entries = ofEntries pairs := by
  -- Collecting goes on from the entries that are there.
  have hfold : ∀ start : Map κ α,
      (pairs.foldl (fun map pair => map.insert pair.1 pair.2) start).entries =
        pairs.foldl (fun built pair => Ordered.insert pair.1 pair.2 built) start.entries := by
    induction pairs with
    | nil => exact fun start => rfl
    | cons pair rest ih => exact fun start => ih (start.insert pair.1 pair.2)
  exact hfold empty

variable [Std.LawfulEqOrd κ]

theorem get?_ofList (pairs : List (κ × α)) (key : κ) :
    (ofList pairs : Map κ α).get? key = last? key pairs := by
  rw [get?, entries_ofList, find?_ofEntries]

/-- There are as many entries as different keys. -/
theorem size_ofList (pairs : List (κ × α)) :
    (ofList pairs : Map κ α).size = (pairs.map Prod.fst).dedup.length := by
  have hnodup : ((ofList pairs : Map κ α).entries.map Prod.fst).Nodup :=
    (ofList pairs).ascending.nodup_keys
  have hperm : ((ofList pairs : Map κ α).entries.map Prod.fst).Perm
      (pairs.map Prod.fst).dedup := by
    -- Both lists have every key once, and the same keys.
    refine (List.perm_ext_iff_of_nodup hnodup (List.nodup_dedup _)).2 fun key => ?_
    rw [List.mem_dedup, ← find?_isSome, ← last?_isSome]
    exact iff_of_eq (congrArg (·.isSome = true) (get?_ofList pairs key))
  rw [size, ← List.length_map Prod.fst, hperm.length_eq]

theorem ofList_congr {pairs others : List (κ × α)} (h : Rearranges pairs others) :
    (ofList pairs : Map κ α) = ofList others := by
  refine ext_get? fun key => ?_
  rw [get?_ofList, get?_ofList, h.last?_eq key]

end Map

end TemplateConditions.Ordered
