import Mathlib.Data.List.Nodup
import TemplateConditions.Ordered.Set

/-!
# Membership in ordered sets

The elements of a set after an insertion, of a union and of a collected list.  A set is known by its
elements, so whatever is shown of membership settles equality.
-/

namespace TemplateConditions.Ordered

variable {α : Type} [Ord α] [Std.LawfulEqOrd α]

/-! ## Ascending lists -/

theorem mem_add {x y : α} {xs : List α} : y ∈ add x xs ↔ y = x ∨ y ∈ xs := by
  induction xs with
  | nil => rw [add, List.mem_singleton, List.mem_nil_iff, or_false]
  | cons head rest ih =>
    unfold add
    split
    · rw [List.mem_cons]
    · rename_i heq
      -- The element that is replaced is the same one.
      have hhead : x = head := Std.compare_eq_iff_eq.1 heq
      rw [← hhead, List.mem_cons, ← or_assoc, or_self]
    · rw [List.mem_cons, ih, List.mem_cons, or_left_comm]

/-- Adding goes on from what is there already. -/
theorem mem_foldl_add {x : α} {xs start : List α} :
    x ∈ xs.foldl (fun present y => add y present) start ↔ x ∈ start ∨ x ∈ xs := by
  induction xs generalizing start with
  | nil => rw [List.foldl_nil, List.mem_nil_iff, or_false]
  | cons y rest ih => rw [List.foldl_cons, ih, mem_add, List.mem_cons, or_assoc, or_left_comm]

omit [Std.LawfulEqOrd α] in
theorem pairwise_foldl_add [Std.TransOrd α] {xs start : List α}
    (h : start.Pairwise fun a b => compare a b = .lt) :
    (xs.foldl (fun present y => add y present) start).Pairwise fun a b => compare a b = .lt := by
  induction xs generalizing start with
  | nil => exact h
  | cons y rest ih => exact ih (pairwise_add h)

theorem mem_joinWith {x z : α} {xs ys : List α} {joinRest : List α → List α}
    (hrest : ∀ zs, z ∈ joinRest zs ↔ z ∈ xs ∨ z ∈ zs) :
    z ∈ joinWith x xs joinRest ys ↔ z ∈ x :: xs ∨ z ∈ ys := by
  induction ys with
  | nil => rw [joinWith, List.mem_nil_iff, or_false]
  | cons y ys ih =>
    unfold joinWith
    split
    · simp only [List.mem_cons, hrest, or_assoc]
    · rename_i heq
      have hy : x = y := Std.compare_eq_iff_eq.1 heq
      simp only [← hy, List.mem_cons, hrest]
      -- The element that both lists begin with is named twice on the right.
      constructor
      · rintro (h | h | h)
        · exact .inl (.inl h)
        · exact .inl (.inr h)
        · exact .inr (.inr h)
      · rintro ((h | h) | h | h)
        · exact .inl h
        · exact .inr (.inl h)
        · exact .inl h
        · exact .inr (.inr h)
    · rw [List.mem_cons, ih, List.mem_cons, List.mem_cons, or_left_comm]

theorem mem_join {z : α} {xs ys : List α} : z ∈ join xs ys ↔ z ∈ xs ∨ z ∈ ys := by
  induction xs generalizing ys with
  | nil => rw [join, List.mem_nil_iff, false_or]
  | cons x xs ih => exact mem_joinWith fun _ => ih

/-- Strictly ascending lists with the same elements are the same list. -/
theorem eq_of_mem_iff [Std.TransOrd α] {xs ys : List α}
    (hxs : xs.Pairwise fun a b => compare a b = .lt)
    (hys : ys.Pairwise fun a b => compare a b = .lt) (h : ∀ x, x ∈ xs ↔ x ∈ ys) : xs = ys := by
  have hne : ∀ {a b : α}, compare a b = .lt → a ≠ b := by
    intro a b hlt heq
    rw [Std.compare_eq_iff_eq.2 heq] at hlt
    exact absurd hlt (by decide)
  have hperm : xs.Perm ys :=
    (List.perm_ext_iff_of_nodup (hxs.imp hne) (hys.imp hne)).2 h
  apply hperm.eq_of_pairwise _ hxs hys
  intro a b _ _ hab hba
  exact absurd hba (Std.OrientedCmp.not_lt_of_lt hab)

/-! ## Sets -/

namespace Set

variable [Std.TransOrd α]

@[simp] theorem mem_insert {set : Set α} {x y : α} : y ∈ set.insert x ↔ y = x ∨ y ∈ set :=
  mem_add

@[simp] theorem mem_union {a b : Set α} {x : α} : x ∈ a.union b ↔ x ∈ a ∨ x ∈ b :=
  mem_join

omit [Std.LawfulEqOrd α] in
theorem elements_foldl_insert (xs : List α) (set : Set α) :
    (xs.foldl insert set).elements = xs.foldl (fun present x => add x present) set.elements :=
  (List.foldl_hom elements fun _ _ => rfl).symm

@[simp] theorem mem_ofList {xs : List α} {x : α} : x ∈ ofList xs ↔ x ∈ xs := by
  show x ∈ (xs.foldl insert empty).elements ↔ x ∈ xs
  rw [elements_foldl_insert, mem_foldl_add]
  exact or_iff_right List.not_mem_nil

/-- A set is known by its elements. -/
theorem ext_mem {a b : Set α} (h : ∀ x, x ∈ a ↔ x ∈ b) : a = b := by
  have helements : a.elements = b.elements := eq_of_mem_iff a.ascending b.ascending h
  cases a
  cases b
  cases helements
  rfl

end Set

end TemplateConditions.Ordered
