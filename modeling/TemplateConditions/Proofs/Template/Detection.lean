import Mathlib.Data.List.TakeWhile
import TemplateConditions.Proofs.Text.Bytes
import TemplateConditions.Template.Load

/-!
# Detected formats

Templates in JSON are found without being named as such.  The root of a template is an object, so its
text has a brace behind the blanks that JSON allows, and those are blanks in the wider sense in which
the first character of a text is looked for.
-/

namespace TemplateConditions

namespace Json

/-- What JSON allows between tokens is blank. -/
theorem isBlank_of_isGap {c : Char} (h : isGap c = true) : Text.isBlank c = true := by
  simp only [isGap, Bool.or_eq_true, beq_iff_eq] at h
  rcases h with ((rfl | rfl) | rfl) | rfl <;> decide

/-- An object starts with a brace. -/
theorem readValue?_eq_object {fuel depth : Nat} {cs rest : List Char} {members : Members}
    (h : readValue? fuel depth cs = some (.object members, rest)) :
    ∃ behind, cs = '\x7b' :: behind := by
  unfold readValue? at h
  split at h
  · simp at h
  · simp at h
  · simp at h
  · simp at h
  · -- An array with items, or without.
    split at h
    · exact absurd h (by simp)
    · split at h
      · simp at h
      · simp at h
  · exact ⟨_, rfl⟩
  · simp at h

theorem parse?_eq_object {text : String} {members : Members}
    (h : parse? text = some (.object members)) :
    ∃ behind, skipGaps text.toList = '\x7b' :: behind := by
  simp only [parse?] at h
  split at h
  · rename_i value rest hread
    split at h
    · rw [Option.some.injEq] at h
      subst h
      exact readValue?_eq_object hread
    · exact absurd h (by simp)
  · exact absurd h (by simp)

end Json

namespace Template

/-- The first character that is not blank is a brace. -/
def BraceFirst (text : String) : Prop :=
  ∃ blanks behind, text.toList = blanks ++ '\x7b' :: behind ∧ ∀ c ∈ blanks, Text.isBlank c = true

/-- It does not matter if only some of the blanks are skipped. -/
theorem braceFirst_of_dropWhile {text : String} {skipped : Char → Bool} {behind : List Char}
    (h : text.toList.dropWhile skipped = '\x7b' :: behind)
    (hblank : ∀ c, skipped c = true → Text.isBlank c = true) : BraceFirst text := by
  refine ⟨text.toList.takeWhile skipped, behind, ?_, fun c hc => ?_⟩
  · rw [← h, List.takeWhile_append_dropWhile]
  · exact hblank c (List.mem_takeWhile_imp hc)

theorem startsWithBrace_iff {text : String} : startsWithBrace text = true ↔ BraceFirst text := by
  rw [startsWithBrace, Text.trimLeft, beq_iff_eq]
  constructor
  · intro h
    obtain ⟨behind, hbehind⟩ := List.head?_eq_some_iff.1 h
    exact braceFirst_of_dropWhile hbehind fun _ hc => hc
  · rintro ⟨blanks, behind, htext, hblanks⟩
    have hbrace : Text.isBlank '\x7b' = false := by decide
    rw [htext, List.dropWhile_append_of_pos hblanks, List.dropWhile_cons_of_neg (by simp [hbrace]),
      List.head?_cons]

theorem ofText_of_braceFirst {text : String} (h : BraceFirst text) :
    ofText text = ofJsonText text := by
  rw [ofText, if_pos (startsWithBrace_iff.2 h)]

/-- A template in JSON has an object for its root, and so a brace in front. -/
theorem braceFirst_of_ofJsonText {text : String} {template : Template}
    (h : ofJsonText text = .ok template) : BraceFirst text := by
  unfold ofJsonText at h
  split at h
  · rename_i root hroot
    cases root with
    | object members =>
      obtain ⟨behind, hbehind⟩ := Json.parse?_eq_object hroot
      exact braceFirst_of_dropWhile hbehind fun _ => Json.isBlank_of_isGap
    | null | bool | number | string | array => exact absurd h (by simp [ofJson])
  · exact absurd h (by simp)

/-! ## Main result -/

/-- A text is a template in JSON exactly if it has a brace as its first character that is not blank
and is the same template when the format is left open.  So a file with such a text is loaded as that
template, whatever its path. -/
theorem json_template_detected :
    (∀ (text : String) (template : Template),
      ofJsonText text = .ok template ↔ BraceFirst text ∧ ofText text = .ok template) ∧
    ∀ (path : String) (bytes : ByteArray) (text : String) (template : Template),
      String.fromUTF8? bytes = some text → ofJsonText text = .ok template →
        ofFile path (.ok bytes) = .ok template := by
  constructor
  · intro text template
    constructor
    · intro h
      have hbrace := braceFirst_of_ofJsonText h
      exact ⟨hbrace, (ofText_of_braceFirst hbrace).trans h⟩
    · rintro ⟨hbrace, h⟩
      exact (ofText_of_braceFirst hbrace).symm.trans h
  · intro path bytes text template hbytes h
    have hbrace := braceFirst_of_ofJsonText h
    -- Both ways to choose a format end with the same reader.
    have hread : (if isJsonPath path then ofJsonText text else ofText text) = .ok template := by
      rw [ofText_of_braceFirst hbrace, ite_self, h]
    unfold ofFile
    simp only [hbytes]
    exact hread

/-- A file that is named as YAML holds a template in JSON, behind blanks that JSON allows. -/
theorem ofFile_json_in_yaml :
    let text := "\n\t\x7b\"Conditions\": \x7b\x7d\x7d"
    let template : Template := ⟨[("Conditions", .object [])]⟩
    isJsonPath "stack.yaml" = false ∧ String.fromUTF8? text.toUTF8 = some text ∧
      ofJsonText text = .ok template ∧ BraceFirst text ∧
      ofFile "stack.yaml" (.ok text.toUTF8) = .ok template := by
  intro text template
  have hparsed : Json.parse? text = some (.object [("Conditions", .object [])]) := by
    dsimp only [text]
    rfl
  have hjson : ofJsonText text = .ok template := by
    simp only [ofJsonText, hparsed]
    rfl
  have hbytes := Text.fromUTF8?_toUTF8 text
  obtain ⟨hdetected, hfile⟩ := json_template_detected
  exact ⟨by decide, hbytes, hjson, ((hdetected text template).1 hjson).1,
    hfile "stack.yaml" _ text template hbytes hjson⟩

/-- A blank that JSON does not allow may stand before the brace, but it is no template then. -/
example : ofText "\u00a0\x7b\x7d" = .error .json := rfl

end Template

end TemplateConditions
