/-!
# Ordered maps

Finite maps kept as lists of entries in strictly ascending key order.  The order is part of the
type, so two maps with the same entries are the same value, and listing a map needs no sorting.
The list operations are also used on their own, where a recursive type has to hold its entries as
a plain list.
-/

namespace TemplateConditions.Ordered

variable {κ α : Type} [Ord κ]

/-- Puts `value` at `key`: an entry that is already there is replaced. -/
def insert (key : κ) (value : α) : List (κ × α) → List (κ × α)
  | [] => [(key, value)]
  | (other, previous) :: rest =>
    match compare key other with
    | .lt => (key, value) :: (other, previous) :: rest
    | .eq => (key, value) :: rest
    | .gt => (other, previous) :: insert key value rest

/-- The value at `key`. -/
def find? (key : κ) : List (κ × α) → Option α
  | [] => none
  | (other, value) :: rest => if compare key other = .eq then some value else find? key rest

/-- Inserts the entries from left to right, so the last one with a key stays. -/
def ofEntries (entries : List (κ × α)) : List (κ × α) :=
  entries.foldl (fun built entry => insert entry.1 entry.2 built) []

/-- Keys rise strictly, so no key occurs twice. -/
def Ascending (entries : List (κ × α)) : Prop :=
  entries.Pairwise fun a b => compare a.1 b.1 = .lt

theorem mem_insert {key : κ} {value : α} {entries : List (κ × α)} {entry : κ × α}
    (h : entry ∈ insert key value entries) : entry = (key, value) ∨ entry ∈ entries := by
  induction entries with
  | nil => simpa [insert] using h
  | cons head rest ih =>
    obtain ⟨other, previous⟩ := head
    unfold insert at h
    split at h
    · simpa using h
    · simp only [List.mem_cons] at h ⊢
      rcases h with h | h
      · exact .inl h
      · exact .inr (.inr h)
    · simp only [List.mem_cons] at h ⊢
      rcases h with h | h
      · exact .inr (.inl h)
      · rcases ih h with h | h
        · exact .inl h
        · exact .inr (.inr h)

theorem ascending_insert [Std.TransOrd κ] {key : κ} {value : α} {entries : List (κ × α)}
    (h : Ascending entries) : Ascending (insert key value entries) := by
  induction entries with
  | nil => simp [insert, Ascending]
  | cons head rest ih =>
    obtain ⟨other, previous⟩ := head
    simp only [Ascending, List.pairwise_cons] at h
    obtain ⟨hhead, hrest⟩ := h
    unfold insert
    split
    · rename_i hlt
      simp only [Ascending, List.pairwise_cons, List.mem_cons]
      refine ⟨?_, hhead, hrest⟩
      rintro entry (rfl | hmem)
      · exact hlt
      · exact Std.TransCmp.lt_trans hlt (hhead entry hmem)
    · rename_i heq
      simp only [Ascending, List.pairwise_cons]
      exact ⟨fun entry hmem => Std.TransCmp.lt_of_eq_of_lt heq (hhead entry hmem), hrest⟩
    · rename_i hgt
      simp only [Ascending, List.pairwise_cons]
      refine ⟨fun entry hmem => ?_, ih hrest⟩
      rcases mem_insert hmem with rfl | hmem
      · exact Std.OrientedCmp.gt_iff_lt.1 hgt
      · exact hhead entry hmem

/-- A finite map with one representation for each set of entries. -/
structure Map (κ α : Type) [Ord κ] where
  entries : List (κ × α)
  ascending : Ascending entries

namespace Map

/-- The map without entries. -/
def empty : Map κ α := ⟨[], by simp [Ascending]⟩

instance : EmptyCollection (Map κ α) := ⟨empty⟩

instance [DecidableEq κ] [DecidableEq α] : DecidableEq (Map κ α) := fun a b =>
  if h : a.entries = b.entries then
    .isTrue (by cases a; cases b; cases h; rfl)
  else
    .isFalse fun heq => h (congrArg entries heq)

/-- Puts `value` at `key`, replacing what was there. -/
def insert [Std.TransOrd κ] (map : Map κ α) (key : κ) (value : α) : Map κ α :=
  ⟨Ordered.insert key value map.entries, ascending_insert map.ascending⟩

/-- The value at `key`. -/
def get? (map : Map κ α) (key : κ) : Option α :=
  find? key map.entries

/-- Is there a value at `key`? -/
def contains (map : Map κ α) (key : κ) : Bool :=
  (map.get? key).isSome

/-- The number of keys. -/
def size (map : Map κ α) : Nat :=
  map.entries.length

/-- Is the map without entries? -/
def isEmpty (map : Map κ α) : Bool :=
  map.entries.isEmpty

/-- Inserts the pairs from left to right, so the last one with a key stays. -/
def ofList [Std.TransOrd κ] (pairs : List (κ × α)) : Map κ α :=
  pairs.foldl (fun map pair => map.insert pair.1 pair.2) empty

@[simp] theorem entries_insert [Std.TransOrd κ] (map : Map κ α) (key : κ) (value : α) :
    (map.insert key value).entries = Ordered.insert key value map.entries := rfl

end Map

end TemplateConditions.Ordered
