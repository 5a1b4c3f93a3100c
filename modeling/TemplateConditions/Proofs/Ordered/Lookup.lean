import TemplateConditions.Ordered.Map

/-!
# Lookup in ordered entries

What `find?` sees of `insert`, of a map over the values, and of keys that are zipped with a function
of them.  None of this needs the entries to be in ascending order, so that the lemmas also hold for
entries that were read from outside.
-/

namespace TemplateConditions.Ordered

variable {κ α β : Type} [Ord κ]

@[simp] theorem find?_nil (key : κ) : find? key ([] : List (κ × α)) = none := rfl

variable [Std.LawfulEqOrd κ] [DecidableEq κ]

theorem find?_cons (key other : κ) (value : α) (rest : List (κ × α)) :
    find? key ((other, value) :: rest) = if key = other then some value else find? key rest := by
  by_cases h : key = other
  · rw [find?, if_pos (Std.compare_eq_iff_eq.2 h), if_pos h]
  · rw [find?, if_neg (fun heq => h (Std.compare_eq_iff_eq.1 heq)), if_neg h]

/-- Insertion changes what is found at one key. -/
theorem find?_insert (key other : κ) (value : α) (entries : List (κ × α)) :
    find? other (insert key value entries) =
      if other = key then some value else find? other entries := by
  induction entries with
  | nil => rw [insert, find?_cons]
  | cons head rest ih =>
    obtain ⟨first, previous⟩ := head
    unfold insert
    split
    · rw [find?_cons]
    · rename_i heq
      have hkey : key = first := Std.compare_eq_iff_eq.1 heq
      subst hkey
      rw [find?_cons, find?_cons]
      by_cases h : other = key
      · rw [if_pos h, if_pos h]
      · rw [if_neg h, if_neg h, if_neg h]
    · rename_i hgt
      have hne : key ≠ first := by
        intro h
        rw [Std.compare_eq_iff_eq.2 h] at hgt
        exact absurd hgt (by decide)
      rw [find?_cons, find?_cons, ih]
      by_cases h : other = first
      · rw [if_pos h, if_pos h, if_neg (fun hkey => hne (hkey.symm.trans h))]
      · rw [if_neg h, if_neg h]

/-- Taking out one key leaves what is found at the others. -/
theorem find?_filter_ne {key other : κ} (h : other ≠ key) (entries : List (κ × α)) :
    find? other (entries.filter fun entry => entry.1 ≠ key) = find? other entries := by
  induction entries with
  | nil => rfl
  | cons head rest ih =>
    obtain ⟨first, value⟩ := head
    by_cases hfirst : first = key
    · rw [List.filter_cons_of_neg (by simp [hfirst]), ih, find?_cons,
        if_neg (fun heq => h (heq.trans hfirst))]
    · rw [List.filter_cons_of_pos (by simp [hfirst]), find?_cons, find?_cons, ih]

/-- Something is found exactly at the keys. -/
theorem find?_isSome (key : κ) (entries : List (κ × α)) :
    (find? key entries).isSome = true ↔ key ∈ entries.map Prod.fst := by
  induction entries with
  | nil => simp
  | cons head rest ih =>
    obtain ⟨other, value⟩ := head
    rw [find?_cons, List.map_cons, List.mem_cons]
    by_cases h : key = other
    · simp [h]
    · rw [if_neg h, ih]
      simp [h]

/-- A map over the values acts on what is found. -/
theorem find?_map (f : α → β) (key : κ) (entries : List (κ × α)) :
    find? key (entries.map fun entry => (entry.1, f entry.2)) = (find? key entries).map f := by
  induction entries with
  | nil => rfl
  | cons head rest ih =>
    obtain ⟨other, value⟩ := head
    rw [List.map_cons, find?_cons, find?_cons, ih]
    by_cases h : key = other
    · rw [if_pos h, if_pos h, Option.map_some]
    · rw [if_neg h, if_neg h]

/-- Keys that stand beside their own values. -/
theorem find?_zip_map (f : κ → α) (key : κ) (keys : List κ) :
    find? key (keys.zip (keys.map f)) = if key ∈ keys then some (f key) else none := by
  induction keys with
  | nil => simp
  | cons other rest ih =>
    rw [List.map_cons, List.zip_cons_cons, find?_cons, ih]
    by_cases h : key = other
    · simp [h]
    · simp [h]

end TemplateConditions.Ordered
