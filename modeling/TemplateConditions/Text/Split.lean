/-!
# Splitting

Cutting a text in two at the first occurrence of a character.
-/

namespace TemplateConditions.Text

/-- What stands before and after the first occurrence of a character. -/
def splitAt? (mark : Char) : List Char → Option (List Char × List Char)
  | [] => none
  | c :: rest =>
    if c = mark then some ([], rest)
    else (splitAt? mark rest).map fun (before, after) => (c :: before, after)

/-- The two parts with the character between them are the text, and it is not in the first. -/
theorem splitAt?_eq_some {mark : Char} {cs before after : List Char}
    (h : splitAt? mark cs = some (before, after)) :
    cs = before ++ mark :: after ∧ mark ∉ before := by
  induction cs generalizing before with
  | nil => simp [splitAt?] at h
  | cons c rest ih =>
    unfold splitAt? at h
    split at h
    · rename_i hc
      simp only [Option.some.injEq, Prod.mk.injEq] at h
      obtain ⟨rfl, rfl⟩ := h
      simp [hc]
    · rename_i hc
      obtain ⟨⟨b, a⟩, hrest, heq⟩ := Option.map_eq_some_iff.1 h
      simp only [Prod.mk.injEq] at heq
      obtain ⟨rfl, rfl⟩ := heq
      obtain ⟨hcs, hmem⟩ := ih hrest
      exact ⟨by rw [hcs, List.cons_append], by simp [hmem, Ne.symm hc]⟩

/-- A text is cut at a character that is not in front. -/
theorem splitAt?_append {mark : Char} {before after : List Char} (h : mark ∉ before) :
    splitAt? mark (before ++ mark :: after) = some (before, after) := by
  induction before with
  | nil => simp [splitAt?]
  | cons c rest ih =>
    simp only [List.mem_cons, not_or] at h
    rw [List.cons_append, splitAt?, if_neg (Ne.symm h.1), ih h.2]
    rfl

theorem splitAt?_eq_none {mark : Char} {cs : List Char} (h : splitAt? mark cs = none) :
    mark ∉ cs := by
  intro hmem
  obtain ⟨before, after, rfl, hbefore⟩ := List.eq_append_cons_of_mem hmem
  rw [splitAt?_append hbefore] at h
  exact absurd h (by simp)

end TemplateConditions.Text
