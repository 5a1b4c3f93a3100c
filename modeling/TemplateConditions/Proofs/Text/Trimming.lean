import Mathlib.Data.List.DropRight
import Mathlib.Data.List.TakeWhile
import TemplateConditions.Text.Blank

/-!
# Trimmed texts

Trimming takes the blanks off both ends of a text and leaves everything between them.  What is left
is known by this: it has no blank at either end, and nothing but blanks stood around it.
-/

namespace TemplateConditions.Text

/-- Nothing but blanks. -/
def Blank (cs : List Char) : Prop :=
  ∀ c ∈ cs, isBlank c = true

instance (cs : List Char) : Decidable (Blank cs) :=
  List.decidableBAll (fun c => isBlank c = true) cs

/-- No blank at either end; the empty text has none. -/
structure Bare (cs : List Char) : Prop where
  head : ∀ c ∈ cs.head?, isBlank c = false
  last : ∀ c ∈ cs.getLast?, isBlank c = false

instance (cs : List Char) : Decidable (Bare cs) :=
  decidable_of_iff (cs.head?.all (fun c => !isBlank c) = true ∧
      cs.getLast?.all (fun c => !isBlank c) = true) <| by
    simp only [Option.all_eq_true, Bool.not_eq_true']
    exact ⟨fun h => ⟨h.1, h.2⟩, fun h => ⟨h.head, h.last⟩⟩

/-- The text is `core` with blanks around it, and `core` itself has none at its ends. -/
structure TrimsTo (cs core : List Char) : Prop where
  bare : Bare core
  padded : ∃ before after, cs = before ++ core ++ after ∧ Blank before ∧ Blank after

variable {cs core before after : List Char}

theorem blank_nil : Blank [] :=
  fun _ hc => absurd hc List.not_mem_nil

theorem bare_nil : Bare [] :=
  ⟨fun _ hc => absurd hc (by simp), fun _ hc => absurd hc (by simp)⟩

/-! ## Left and right -/

theorem trimLeft_append (h : Blank before) : trimLeft (before ++ cs) = trimLeft cs :=
  List.dropWhile_append_of_pos h

theorem trimRight_append (h : Blank after) : trimRight (cs ++ after) = trimRight cs := by
  have hreverse : ∀ c ∈ after.reverse, isBlank c = true :=
    fun c hc => h c (List.mem_reverse.1 hc)
  rw [trimRight, List.reverse_append, List.dropWhile_append_of_pos hreverse, trimRight]

theorem trimLeft_suffix (cs : List Char) : trimLeft cs <:+ cs :=
  List.dropWhile_suffix isBlank

theorem trimLeft_of_head (h : ∀ c ∈ cs.head?, isBlank c = false) : trimLeft cs = cs := by
  cases cs with
  | nil => rfl
  | cons c rest => exact List.dropWhile_cons_of_neg (by simp [h c rfl])

theorem trimRight_of_last (h : ∀ c ∈ cs.getLast?, isBlank c = false) : trimRight cs = cs := by
  have hhead : ∀ c ∈ cs.reverse.head?, isBlank c = false := by
    rw [List.head?_reverse]
    exact h
  show (trimLeft cs.reverse).reverse = cs
  rw [trimLeft_of_head hhead, List.reverse_reverse]

theorem head?_trimLeft (cs : List Char) : ∀ c ∈ (trimLeft cs).head?, isBlank c = false := by
  intro c hc
  have hnot := List.head?_dropWhile_not isBlank cs
  rw [show (List.dropWhile isBlank cs).head? = some c from hc] at hnot
  exact hnot

theorem getLast?_trimRight (cs : List Char) :
    ∀ c ∈ (trimRight cs).getLast?, isBlank c = false := by
  intro c hc
  rw [trimRight, List.getLast?_reverse] at hc
  exact head?_trimLeft cs.reverse c hc

/-! ## Both ends -/

/-- What is dropped from the front and from the back is blank. -/
theorem exists_padding (cs : List Char) :
    ∃ before after,
      cs = before ++ trimRight (trimLeft cs) ++ after ∧ Blank before ∧ Blank after := by
  have hleft : cs.takeWhile isBlank ++ trimLeft cs = cs := List.takeWhile_append_dropWhile
  have hright : trimRight (trimLeft cs) ++ (trimLeft cs).rtakeWhile isBlank = trimLeft cs :=
    List.rdropWhile_append_rtakeWhile
  refine ⟨cs.takeWhile isBlank, (trimLeft cs).rtakeWhile isBlank, ?_, ?_, ?_⟩
  · rw [List.append_assoc, hright, hleft]
  · exact fun _ hc => List.mem_takeWhile_imp hc
  · exact fun _ hc => List.mem_rtakeWhile_imp hc

/-- What is left has no blank in front either, because it starts like the text without its leading
blanks. -/
theorem bare_trimRight_trimLeft (cs : List Char) : Bare (trimRight (trimLeft cs)) := by
  refine ⟨fun c hc => ?_, getLast?_trimRight (trimLeft cs)⟩
  have hfront : trimRight (trimLeft cs) <+: trimLeft cs := List.rdropWhile_prefix isBlank _
  obtain ⟨dropped, hdropped⟩ := hfront
  apply head?_trimLeft cs c
  rw [← hdropped, List.head?_append, Option.mem_def.1 hc]
  rfl

theorem trimRight_trimLeft_of_padded (hcore : Bare core) (hbefore : Blank before)
    (hafter : Blank after) : trimRight (trimLeft (before ++ core ++ after)) = core := by
  cases core with
  | nil =>
    -- Between the blanks there is nothing, so everything goes from the front.
    have hall : Blank (before ++ after) := List.forall_mem_append.2 ⟨hbefore, hafter⟩
    rw [List.append_nil, ← List.append_nil (before ++ after), trimLeft_append hall]
    rfl
  | cons c rest =>
    have hhead : ∀ d ∈ (c :: rest ++ after).head?, isBlank d = false := hcore.head
    rw [List.append_assoc, trimLeft_append hbefore, trimLeft_of_head hhead,
      trimRight_append hafter, trimRight_of_last hcore.last]

theorem trimRight_trimLeft_eq_iff : trimRight (trimLeft cs) = core ↔ TrimsTo cs core := by
  constructor
  · rintro rfl
    exact ⟨bare_trimRight_trimLeft cs, exists_padding cs⟩
  · rintro ⟨hcore, before, after, rfl, hbefore, hafter⟩
    exact trimRight_trimLeft_of_padded hcore hbefore hafter

/-- Trimming gives the one text without blanks at its ends that the text holds between blanks. -/
theorem trim_eq_iff {text core : String} :
    trim text = core ↔ TrimsTo text.toList core.toList := by
  rw [← trimRight_trimLeft_eq_iff, ← String.toList_inj, trim, String.toList_ofList]

/-- What is left of a text is told by the text. -/
theorem TrimsTo.unique {other : List Char} (h : TrimsTo cs core) (h' : TrimsTo cs other) :
    core = other :=
  (trimRight_trimLeft_eq_iff.2 h).symm.trans (trimRight_trimLeft_eq_iff.2 h')

theorem trimsTo_self (h : Bare cs) : TrimsTo cs cs :=
  ⟨h, [], [], by simp, blank_nil, blank_nil⟩

theorem trimsTo_trim (text : String) : TrimsTo text.toList (trim text).toList :=
  trim_eq_iff.1 rfl

/-- Nothing is left exactly of blanks. -/
theorem trimsTo_nil_iff : TrimsTo cs [] ↔ Blank cs := by
  constructor
  · rintro ⟨-, before, after, rfl, hbefore, hafter⟩
    rw [List.append_nil]
    exact List.forall_mem_append.2 ⟨hbefore, hafter⟩
  · intro h
    exact ⟨bare_nil, cs, [], by simp, h, blank_nil⟩

end TemplateConditions.Text
