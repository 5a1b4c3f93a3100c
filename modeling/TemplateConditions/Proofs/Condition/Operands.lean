import Mathlib.Data.List.Forall2
import TemplateConditions.Condition.Equals

/-!
# Which comparisons are accepted

The written forms of an operand and of a comparison, and that exactly these forms are accepted.  It
does not matter on which side a literal stands, nor whether a number or a boolean is written as
itself or as a string.
-/

namespace TemplateConditions

theorem Json.compact_number (value : JsonNumber) : (Json.number value).compact = value.text := by
  rw [Json.compact]

namespace Clause

/-! ## Operands -/

/-- The mapping by which an operand names a reference. -/
def refToJson (name : String) : Json :=
  .object [("Ref", .string name)]

def IsRef (json : Json) : Prop :=
  ∃ name, json = refToJson name

theorem reference_ofJson?_eq_some_iff {json : Json} {target : Reference} :
    Reference.ofJson? json = some target ↔ json = refToJson target.name := by
  constructor
  · intro h
    unfold Reference.ofJson? at h
    split at h
    · rw [← Option.some.inj h]
      rfl
    · exact absurd h (by simp)
  · rintro rfl
    rfl

namespace Operand

/-- The forms in which an operand may be written. -/
inductive WrittenAs : Operand → Json → Prop
  | string (text : String) : WrittenAs (.literal text) (.string text)
  | number (value : JsonNumber) : WrittenAs (.literal (Json.number value).compact) (.number value)
  | bool (value : Bool) : WrittenAs (.literal (Json.bool value).compact) (.bool value)
  | reference (name : String) : WrittenAs (.reference ⟨name⟩) (refToJson name)

theorem ofJson_eq_ok_iff {json : Json} {operand : Operand} :
    ofJson json = .ok operand ↔ operand.WrittenAs json := by
  constructor
  · intro h
    unfold ofJson at h
    split at h
    · rw [← Except.ok.inj h]
      exact .string _
    · rw [← Except.ok.inj h, ← Json.compact_number]
      exact .number _
    · rw [← Except.ok.inj h]
      exact .bool _
    · exact absurd h (by simp)
    · exact absurd h (by simp)
    · split at h
      · rename_i href
        rw [← Except.ok.inj h, reference_ofJson?_eq_some_iff.1 href]
        exact .reference _
      all_goals exact absurd h (by simp)
  · rintro (text | value | value | name)
    · rfl
    · rw [ofJson, Json.compact_number]
    · rfl
    · rfl

/-- An operand names a reference exactly if it is read as one. -/
theorem WrittenAs.isRef_iff {operand : Operand} {json : Json} (h : operand.WrittenAs json) :
    IsRef json ↔ ∃ target, operand = .reference target := by
  constructor
  · rintro ⟨name, rfl⟩
    have hread := ofJson_eq_ok_iff.2 h
    exact ⟨⟨name⟩, (Except.ok.inj hread).symm⟩
  · rintro ⟨target, rfl⟩
    cases h with
    | reference name => exact ⟨name, rfl⟩

/-- The operand as the other side of a comparison. -/
def comparand : Operand → Comparand
  | .literal text => .literal text
  | .reference target => .reference target.token

end Operand

/-- Written as some operand: a string, a number, a boolean or a reference. -/
def IsOperand (json : Json) : Prop :=
  ∃ operand : Operand, operand.WrittenAs json

/-! ## Pairs of operands -/

theorem ofJson_pair (left right : Json) :
    ofJson (.array [left, right]) = (Operand.ofJson left).bind fun a =>
      (Operand.ofJson right).bind fun b => ofOperands a b := rfl

theorem ofJson_pair_eq_ok_iff {left right : Json} {clause : Clause} :
    ofJson (.array [left, right]) = .ok clause ↔ ∃ a b : Operand,
      a.WrittenAs left ∧ b.WrittenAs right ∧ ofOperands a b = .ok clause := by
  simp only [← Operand.ofJson_eq_ok_iff]
  rw [ofJson_pair]
  constructor
  · intro h
    cases ha : Operand.ofJson left with
    | error fault =>
      rw [ha] at h
      exact absurd h (by simp [Except.bind])
    | ok a =>
      cases hb : Operand.ofJson right with
      | error fault =>
        rw [ha, hb] at h
        exact absurd h (by simp [Except.bind])
      | ok b =>
        rw [ha, hb] at h
        exact ⟨a, b, rfl, rfl, h⟩
  · rintro ⟨a, b, ha, hb, h⟩
    rw [ha, hb]
    exact h

/-- Only an array of two is a comparison. -/
theorem ofJson_eq_ok_iff_pair {json : Json} {clause : Clause} :
    ofJson json = .ok clause ↔
      ∃ left right, json = .array [left, right] ∧ ofJson (.array [left, right]) = .ok clause := by
  constructor
  · intro h
    have hread := h
    unfold ofJson at hread
    split at hread
    · exact ⟨_, _, rfl, h⟩
    · exact absurd hread (by simp)
    · exact absurd hread (by simp)
  · rintro ⟨left, right, rfl, h⟩
    exact h

theorem exists_ofOperands_iff {a b : Operand} :
    (∃ clause, ofOperands a b = .ok clause) ↔
      (∃ target, a = .reference target) ∨ ∃ target, b = .reference target := by
  cases a <;> cases b <;> simp [ofOperands]

/-- With a literal on one side, the sides may be exchanged. -/
theorem ofOperands_comm {a b : Operand}
    (h : ¬ ((∃ target, a = .reference target) ∧ ∃ target, b = .reference target)) :
    ofOperands a b = ofOperands b a := by
  cases a with
  | literal => cases b <;> rfl
  | reference first =>
    cases b with
    | literal => rfl
    | reference second => exact absurd ⟨⟨first, rfl⟩, second, rfl⟩ h

/-! ## Comparisons -/

theorem parse?_eq_some_iff {json : Json} {clause : Clause} :
    parse? json = some clause ↔ ofJson json = .ok clause := by
  unfold parse?
  cases ofJson json <;> simp

theorem isSome_rejection?_iff (json : Json) :
    (rejection? json).isSome ↔ parse? json = none := by
  unfold rejection? parse?
  cases ofJson json <;> simp

theorem parse?_pair_eq_some_iff {left right : Json} {clause : Clause} :
    parse? (.array [left, right]) = some clause ↔ ∃ a b : Operand,
      a.WrittenAs left ∧ b.WrittenAs right ∧ ofOperands a b = .ok clause :=
  parse?_eq_some_iff.trans ofJson_pair_eq_ok_iff

theorem isSome_parse?_pair_iff {left right : Json} :
    (parse? (.array [left, right])).isSome ↔
      IsOperand left ∧ IsOperand right ∧ (IsRef left ∨ IsRef right) := by
  rw [Option.isSome_iff_exists]
  simp only [parse?_pair_eq_some_iff]
  constructor
  · rintro ⟨clause, a, b, ha, hb, hclause⟩
    rw [ha.isRef_iff, hb.isRef_iff]
    exact ⟨⟨a, ha⟩, ⟨b, hb⟩, exists_ofOperands_iff.1 ⟨clause, hclause⟩⟩
  · rintro ⟨⟨a, ha⟩, ⟨b, hb⟩, href⟩
    rw [ha.isRef_iff, hb.isRef_iff] at href
    obtain ⟨clause, hclause⟩ := exists_ofOperands_iff.2 href
    exact ⟨clause, a, b, ha, hb, hclause⟩

theorem isSome_parse?_iff {json : Json} :
    (parse? json).isSome ↔ ∃ left right, json = .array [left, right] ∧
      IsOperand left ∧ IsOperand right ∧ (IsRef left ∨ IsRef right) := by
  constructor
  · intro h
    obtain ⟨clause, hclause⟩ := Option.isSome_iff_exists.1 h
    obtain ⟨left, right, rfl, -⟩ := ofJson_eq_ok_iff_pair.1 (parse?_eq_some_iff.1 hclause)
    exact ⟨left, right, rfl, isSome_parse?_pair_iff.1 h⟩
  · rintro ⟨left, right, rfl, h⟩
    exact isSome_parse?_pair_iff.2 h

/-- A comparison is written with its subject on the left, or with a literal there and its subject on
the right. -/
inductive WrittenAs : Clause → Json → Prop
  | subjectLeft {name : String} {operand : Operand} {right : Json} : operand.WrittenAs right →
    WrittenAs ⟨Token.ofName name, operand.comparand⟩ (.array [refToJson name, right])
  | subjectRight {name text : String} {left : Json} : (Operand.literal text).WrittenAs left →
    WrittenAs ⟨Token.ofName name, .literal text⟩ (.array [left, refToJson name])

theorem parse?_eq_some_iff_writtenAs {json : Json} {clause : Clause} :
    parse? json = some clause ↔ clause.WrittenAs json := by
  constructor
  · intro h
    obtain ⟨left, right, rfl, hpair⟩ := ofJson_eq_ok_iff_pair.1 (parse?_eq_some_iff.1 h)
    obtain ⟨a, b, ha, hb, hclause⟩ := ofJson_pair_eq_ok_iff.1 hpair
    cases a with
    | reference target =>
      -- The left operand is the subject, whatever the right one is.
      have hsubject : ofOperands (.reference target) b = .ok ⟨target.token, b.comparand⟩ := by
        cases b <;> rfl
      obtain rfl := Except.ok.inj (hsubject.symm.trans hclause)
      cases ha with
      | reference name => exact .subjectLeft hb
    | literal text =>
      cases hb with
      | reference name =>
        obtain rfl := Except.ok.inj hclause
        exact .subjectRight ha
      | string | number | bool => exact absurd hclause (by simp [ofOperands])
  · rintro (hright | hleft)
    · rename_i name operand right
      refine parse?_pair_eq_some_iff.2 ⟨.reference ⟨name⟩, operand, .reference name, hright, ?_⟩
      cases operand <;> rfl
    · exact parse?_pair_eq_some_iff.2 ⟨_, _, hleft, .reference _, rfl⟩

/-! ## Equivalent forms -/

/-- The second operand is the first one, or it is the string of its JSON text. -/
inductive Restates : Json → Json → Prop
  | same (json : Json) : Restates json json
  | number (value : JsonNumber) : Restates (.number value) (.string (Json.number value).compact)
  | bool (value : Bool) : Restates (.bool value) (.string (Json.bool value).compact)

theorem Restates.ofJson_eq {json other : Json} (h : Restates json other) :
    Operand.ofJson other = Operand.ofJson json := by
  cases h with
  | same => rfl
  | number value => rw [Operand.ofJson, Operand.ofJson, Json.compact_number]
  | bool => rfl

/-- Restated operands are accepted or refused alike, for the same reason. -/
theorem ofJson_eq_of_restates {items others : List Json}
    (h : List.Forall₂ Restates items others) : ofJson (.array others) = ofJson (.array items) := by
  match h with
  | .nil => rfl
  | .cons _ .nil => rfl
  | .cons hleft (.cons hright .nil) =>
    rw [ofJson_pair, ofJson_pair, hleft.ofJson_eq, hright.ofJson_eq]
  | .cons _ (.cons _ (.cons _ _)) => rfl

theorem parse?_swap {left right : Json} (h : ¬ (IsRef left ∧ IsRef right)) :
    parse? (.array [left, right]) = parse? (.array [right, left]) := by
  apply Option.ext
  intro clause
  rw [parse?_pair_eq_some_iff, parse?_pair_eq_some_iff]
  constructor
  · rintro ⟨a, b, ha, hb, hclause⟩
    rw [ha.isRef_iff, hb.isRef_iff] at h
    exact ⟨b, a, hb, ha, (ofOperands_comm h).symm.trans hclause⟩
  · rintro ⟨b, a, hb, ha, hclause⟩
    rw [ha.isRef_iff, hb.isRef_iff] at h
    exact ⟨a, b, ha, hb, (ofOperands_comm h).trans hclause⟩

/-- Two operands are accepted if one of them is a reference; if both are, they change places with
each other, and a literal may be written in any of its forms. -/
theorem comparisons_accepted :
    (∀ json, (parse? json).isSome ↔ ∃ left right, json = .array [left, right] ∧
      IsOperand left ∧ IsOperand right ∧ (IsRef left ∨ IsRef right)) ∧
    (∀ json, (rejection? json).isSome ↔ parse? json = none) ∧
    (∀ json clause, parse? json = some clause ↔ clause.WrittenAs json) ∧
    (∀ left right, (parse? (.array [left, right])).isSome ↔
      (parse? (.array [right, left])).isSome) ∧
    (∀ left right, ¬ (IsRef left ∧ IsRef right) →
      parse? (.array [left, right]) = parse? (.array [right, left])) ∧
    (∀ left right, IsRef left → IsRef right → ∃ first second,
      parse? (.array [left, right]) = some ⟨first, .reference second⟩ ∧
        parse? (.array [right, left]) = some ⟨second, .reference first⟩) ∧
    ∀ items others, List.Forall₂ Restates items others →
      ofJson (.array others) = ofJson (.array items) := by
  refine ⟨fun json => isSome_parse?_iff, isSome_rejection?_iff,
    fun json clause => parse?_eq_some_iff_writtenAs, ?_, fun left right => parse?_swap, ?_,
    fun items others => ofJson_eq_of_restates⟩
  · intro left right
    rw [isSome_parse?_pair_iff, isSome_parse?_pair_iff, and_left_comm, or_comm]
  · rintro left right ⟨name, rfl⟩ ⟨other, rfl⟩
    exact ⟨Token.ofName name, Token.ofName other, rfl, rfl⟩

/-- A number before a reference, the same behind it, and two references. -/
theorem two_compared_with_count :
    let two := Json.number (.int 2)
    let count := refToJson "Count"
    let limit := refToJson "Limit"
    parse? (.array [two, count]) = parse? (.array [count, two]) ∧
      ofJson (.array [.string "2", count]) = ofJson (.array [two, count]) ∧
      ∃ first second, parse? (.array [count, limit]) = some ⟨first, .reference second⟩ ∧
        parse? (.array [limit, count]) = some ⟨second, .reference first⟩ := by
  intro two count limit
  have hnot : ¬ IsRef two := by
    rintro ⟨name, hname⟩
    exact Json.noConfusion hname
  have htext : two.compact = "2" := by
    rw [Json.compact_number]
    rfl
  refine ⟨?_, ?_, ?_⟩
  · exact comparisons_accepted.2.2.2.2.1 two count fun h => hnot h.1
  · rw [← htext]
    exact comparisons_accepted.2.2.2.2.2.2 _ _ (.cons (.number _) (.cons (.same count) .nil))
  · exact comparisons_accepted.2.2.2.2.2.1 count limit ⟨_, rfl⟩ ⟨_, rfl⟩

end Clause

end TemplateConditions
