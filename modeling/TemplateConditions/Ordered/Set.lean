/-!
# Ordered sets

Finite sets kept as strictly ascending lists.  As with maps, the order is part of the type: two
sets with the same elements are the same value.
-/

namespace TemplateConditions.Ordered

variable {α : Type} [Ord α]

/-- Puts `x` at its place in an ascending list; an equal element is replaced. -/
def add (x : α) : List α → List α
  | [] => [x]
  | y :: rest =>
    match compare x y with
    | .lt => x :: y :: rest
    | .eq => x :: rest
    | .gt => y :: add x rest

theorem mem_of_mem_add {x y : α} {xs : List α} (h : y ∈ add x xs) : y = x ∨ y ∈ xs := by
  induction xs with
  | nil => simpa [add] using h
  | cons head rest ih =>
    unfold add at h
    split at h
    · simpa using h
    · simp only [List.mem_cons] at h ⊢
      rcases h with h | h
      · exact .inl h
      · exact .inr (.inr h)
    · simp only [List.mem_cons] at h ⊢
      rcases h with h | h
      · exact .inr (.inl h)
      · rcases ih h with h | h
        · exact .inl h
        · exact .inr (.inr h)

theorem pairwise_add [Std.TransOrd α] {x : α} {xs : List α}
    (h : xs.Pairwise fun a b => compare a b = .lt) :
    (add x xs).Pairwise fun a b => compare a b = .lt := by
  induction xs with
  | nil => simp [add]
  | cons head rest ih =>
    simp only [List.pairwise_cons] at h
    obtain ⟨hhead, hrest⟩ := h
    unfold add
    split
    · rename_i hlt
      simp only [List.pairwise_cons, List.mem_cons]
      refine ⟨?_, hhead, hrest⟩
      rintro y (rfl | hmem)
      · exact hlt
      · exact Std.TransCmp.lt_trans hlt (hhead y hmem)
    · rename_i heq
      simp only [List.pairwise_cons]
      exact ⟨fun y hmem => Std.TransCmp.lt_of_eq_of_lt heq (hhead y hmem), hrest⟩
    · rename_i hgt
      simp only [List.pairwise_cons]
      refine ⟨fun y hmem => ?_, ih hrest⟩
      rcases mem_of_mem_add hmem with rfl | hmem
      · exact Std.OrientedCmp.gt_iff_lt.1 hgt
      · exact hhead y hmem

/-- Joins `x :: xs` with an ascending list, where `joinRest` joins `xs` with one. -/
def joinWith (x : α) (xs : List α) (joinRest : List α → List α) : List α → List α
  | [] => x :: xs
  | y :: ys =>
    match compare x y with
    | .lt => x :: joinRest (y :: ys)
    | .eq => x :: joinRest ys
    | .gt => y :: joinWith x xs joinRest ys

/-- The elements of two ascending lists in order; of two equal ones the first stays. -/
def join : List α → List α → List α
  | [], ys => ys
  | x :: xs, ys => joinWith x xs (join xs) ys

theorem mem_of_mem_joinWith {x z : α} {xs ys : List α} {joinRest : List α → List α}
    (hrest : ∀ zs, z ∈ joinRest zs → z ∈ xs ∨ z ∈ zs) (h : z ∈ joinWith x xs joinRest ys) :
    z ∈ x :: xs ∨ z ∈ ys := by
  induction ys with
  | nil => exact .inl h
  | cons y ys ih =>
    unfold joinWith at h
    split at h <;> simp only [List.mem_cons] at h ih ⊢
    · rcases h with h | h
      · exact .inl (.inl h)
      · rcases hrest _ h with h | h
        · exact .inl (.inr h)
        · exact .inr (List.mem_cons.1 h)
    · rcases h with h | h
      · exact .inl (.inl h)
      · rcases hrest _ h with h | h
        · exact .inl (.inr h)
        · exact .inr (.inr h)
    · rcases h with h | h
      · exact .inr (.inl h)
      · rcases ih h with h | h
        · exact .inl h
        · exact .inr (.inr h)

theorem mem_of_mem_join {z : α} {xs ys : List α} (h : z ∈ join xs ys) : z ∈ xs ∨ z ∈ ys := by
  induction xs generalizing ys with
  | nil => exact .inr h
  | cons x xs ih => exact mem_of_mem_joinWith (fun _ => ih) h

theorem pairwise_joinWith [Std.TransOrd α] {x : α} {xs ys : List α}
    {joinRest : List α → List α}
    (hmem : ∀ z zs, z ∈ joinRest zs → z ∈ xs ∨ z ∈ zs)
    (hrest : ∀ zs, (zs.Pairwise fun a b => compare a b = .lt) →
      (joinRest zs).Pairwise fun a b => compare a b = .lt)
    (hxs : (x :: xs).Pairwise fun a b => compare a b = .lt)
    (hys : ys.Pairwise fun a b => compare a b = .lt) :
    (joinWith x xs joinRest ys).Pairwise fun a b => compare a b = .lt := by
  induction ys with
  | nil => exact hxs
  | cons y ys ih =>
    have hx := (List.pairwise_cons.1 hxs).1
    obtain ⟨hy, htail⟩ := List.pairwise_cons.1 hys
    unfold joinWith
    split
    · rename_i hlt
      refine List.pairwise_cons.2 ⟨fun z hz => ?_, hrest _ hys⟩
      rcases hmem _ _ hz with hz | hz
      · exact hx z hz
      · rcases List.mem_cons.1 hz with rfl | hz
        · exact hlt
        · exact Std.TransCmp.lt_trans hlt (hy z hz)
    · rename_i heq
      refine List.pairwise_cons.2 ⟨fun z hz => ?_, hrest _ htail⟩
      rcases hmem _ _ hz with hz | hz
      · exact hx z hz
      · exact Std.TransCmp.lt_of_eq_of_lt heq (hy z hz)
    · rename_i hgt
      have hlt : compare y x = .lt := Std.OrientedCmp.gt_iff_lt.1 hgt
      refine List.pairwise_cons.2 ⟨fun z hz => ?_, ih htail⟩
      rcases mem_of_mem_joinWith (hmem z) hz with hz | hz
      · rcases List.mem_cons.1 hz with rfl | hz
        · exact hlt
        · exact Std.TransCmp.lt_trans hlt (hx z hz)
      · exact hy z hz

theorem pairwise_join [Std.TransOrd α] {xs ys : List α}
    (hxs : xs.Pairwise fun a b => compare a b = .lt)
    (hys : ys.Pairwise fun a b => compare a b = .lt) :
    (join xs ys).Pairwise fun a b => compare a b = .lt := by
  induction xs generalizing ys with
  | nil => exact hys
  | cons x xs ih =>
    exact pairwise_joinWith (fun _ _ => mem_of_mem_join) (fun _ => ih (List.pairwise_cons.1 hxs).2)
      hxs hys

/-- A finite set with one representation for each collection of elements. -/
structure Set (α : Type) [Ord α] where
  elements : List α
  ascending : elements.Pairwise fun a b => compare a b = .lt

namespace Set

/-- The set without elements. -/
def empty : Set α := ⟨[], .nil⟩

instance : EmptyCollection (Set α) := ⟨empty⟩

instance : Membership α (Set α) := ⟨fun set x => x ∈ set.elements⟩

instance [DecidableEq α] : DecidableEq (Set α) := fun a b =>
  if h : a.elements = b.elements then
    .isTrue (by cases a; cases b; cases h; rfl)
  else
    .isFalse fun heq => h (congrArg elements heq)

/-- The set with `x` in it. -/
def insert [Std.TransOrd α] (set : Set α) (x : α) : Set α :=
  ⟨add x set.elements, pairwise_add set.ascending⟩

/-- The elements of both sets. -/
def union [Std.TransOrd α] (a b : Set α) : Set α :=
  ⟨join a.elements b.elements, pairwise_join a.ascending b.ascending⟩

/-- The elements of a list, each once. -/
def ofList [Std.TransOrd α] (xs : List α) : Set α :=
  xs.foldl insert empty

@[simp] theorem elements_insert [Std.TransOrd α] (set : Set α) (x : α) :
    (set.insert x).elements = add x set.elements := rfl

end Set

end TemplateConditions.Ordered
