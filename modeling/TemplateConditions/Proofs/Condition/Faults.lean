import TemplateConditions.Proofs.Condition.Declared

/-!
# Faults of combinations

The argument of a combining function has to be a sequence, its length has to be one that the
connective allows, and every item has to name a condition.  Reading a combination fails with the
first fault in this order, where the items are looked at from the first one on.
-/

namespace TemplateConditions.Definition

/-! ## Items -/

/-- What is wrong with an item that names no condition. -/
inductive ItemFault : Json → CombinationFault → Prop
  | kind {item : Json} (hitem : ∀ members, item ≠ .object members) :
    ItemFault item (.itemKind item.kind)
  | keys {members : List (String × Json)} (hcount : members.length ≠ 1) :
    ItemFault (.object members) (.itemKeys members.length)
  | function {key : String} {value : Json} (hkey : key ≠ "Condition") :
    ItemFault (.object [(key, value)]) .itemFunction
  | target {value : Json} (hvalue : ∀ target, value ≠ .string target) :
    ItemFault (.object [("Condition", value)]) (.itemTarget value.kind)

theorem ItemFault.targetOfJson_eq {item : Json} {fault : CombinationFault}
    (h : ItemFault item fault) : targetOfJson item = .error fault := by
  cases h with
  | kind hitem =>
    cases item with
    | object members => exact absurd rfl (hitem members)
    | _ => rfl
  | @keys members hcount =>
    have hmore : ∀ member, members ≠ [member] := by
      rintro member rfl
      exact hcount rfl
    -- The forms with one member come first, and no other number has any of them.
    unfold targetOfJson
    split
    · exact absurd (Json.object.inj ‹_›) (hmore _)
    · exact absurd (Json.object.inj ‹_›) (hmore _)
    · exact absurd (Json.object.inj ‹_›) (hmore _)
    · rename_i heq
      rw [Json.object.inj heq]
    · rename_i hobject
      exact (hobject members rfl).elim
  | @function key value hkey =>
    unfold targetOfJson
    split
    · rename_i heq
      exact absurd (by simpa using heq) (not_and_of_not_left _ hkey)
    · rename_i heq
      exact absurd (by simpa using heq) (not_and_of_not_left _ hkey)
    · rfl
    · rename_i hcount heq
      exact (hcount (key, value) (Json.object.inj heq).symm).elim
    · rename_i hobject
      exact (hobject _ rfl).elim
  | @target value hvalue =>
    cases value with
    | string target => exact absurd rfl (hvalue target)
    | _ => rfl

theorem targetOfJson_eq_error_iff {item : Json} {fault : CombinationFault} :
    targetOfJson item = .error fault ↔ ItemFault item fault := by
  constructor
  · intro h
    unfold targetOfJson at h
    split at h
    · exact absurd h (by simp)
    · rename_i hvalue
      rw [← Except.error.inj h]
      exact .target hvalue
    · rename_i member _ hkey
      rw [← Except.error.inj h]
      exact .function fun heq => hkey member.2 (Prod.ext heq rfl)
    · rename_i hcount
      rw [← Except.error.inj h]
      refine .keys fun hone => ?_
      obtain ⟨member, hmember⟩ := List.length_eq_one_iff.1 hone
      exact hcount member hmember
    · rename_i hitem
      rw [← Except.error.inj h]
      exact .kind hitem
  · exact ItemFault.targetOfJson_eq

/-- An item has a fault, unless it names a condition. -/
theorem exists_itemFault_iff {item : Json} :
    (∃ fault, ItemFault item fault) ↔ ∀ target, item ≠ targetToJson target := by
  constructor
  · rintro ⟨fault, hfault⟩ target rfl
    exact absurd hfault.targetOfJson_eq (by simp [targetOfJson, targetToJson])
  · intro h
    cases hread : targetOfJson item with
    | ok target => exact absurd (targetOfJson_eq_ok_iff.1 hread) (h target)
    | error fault => exact ⟨fault, targetOfJson_eq_error_iff.1 hread⟩

theorem targetsOfItems_eq_error_iff {items : List Json} {fault : CombinationFault} :
    targetsOfItems items = .error fault ↔
      ∃ (targets : List String) (item : Json) (rest : List Json),
        items = targets.map targetToJson ++ item :: rest ∧ ItemFault item fault := by
  constructor
  · intro h
    induction items with
    | nil => exact absurd h (by simp [targetsOfItems])
    | cons item rest ih =>
      rw [targetsOfItems_cons] at h
      split at h
      · -- The first item is at fault, whatever the others are.
        rename_i hread
        rw [Except.error.inj h] at hread
        exact ⟨[], item, rest, rfl, targetOfJson_eq_error_iff.1 hread⟩
      · rename_i target hread
        split at h
        · rename_i hrest
          rw [Except.error.inj h] at hrest
          obtain ⟨targets, faulty, others, rfl, hfault⟩ := ih hrest
          rw [targetOfJson_eq_ok_iff.1 hread]
          exact ⟨target :: targets, faulty, others, rfl, hfault⟩
        · exact absurd h (by simp)
  · rintro ⟨targets, item, rest, rfl, hfault⟩
    -- The items in front of the fault are read one by one.
    induction targets with
    | nil =>
      rw [List.map_nil, List.nil_append, targetsOfItems_cons, hfault.targetOfJson_eq]
    | cons target targets ih =>
      rw [List.map_cons, List.cons_append, targetsOfItems_cons,
        targetOfJson_eq_ok_iff.2 rfl]
      dsimp only
      rw [ih]

/-! ## Arguments -/

/-- The first fault of the argument of a connective. -/
inductive FirstFault (connective : Connective) : Json → CombinationFault → Prop
  | notASequence {argument : Json} (hargument : ∀ items, argument ≠ .array items) :
    FirstFault connective argument .notASequence
  | arity {items : List Json} (hcount : connective.allows items.length = false) :
    FirstFault connective (.array items) (.arity connective items.length)
  | item {targets : List String} {item : Json} {rest : List Json} {fault : CombinationFault}
    (hcount : connective.allows (targets.map targetToJson ++ item :: rest).length = true)
    (hitem : ItemFault item fault) :
    FirstFault connective (.array (targets.map targetToJson ++ item :: rest)) fault

theorem targetsOfJson_eq_error_iff {connective : Connective} {argument : Json}
    {fault : CombinationFault} :
    targetsOfJson connective argument = .error fault ↔ FirstFault connective argument fault := by
  constructor
  · intro h
    unfold targetsOfJson at h
    split at h
    · rename_i items
      split at h
      · rename_i hcount
        obtain ⟨targets, item, rest, rfl, hitem⟩ := targetsOfItems_eq_error_iff.1 h
        exact .item hcount hitem
      · rename_i hcount
        rw [← Except.error.inj h]
        exact .arity (Bool.eq_false_iff.2 hcount)
    · rename_i hargument
      rw [← Except.error.inj h]
      exact .notASequence hargument
  · intro h
    cases h with
    | notASequence hargument =>
      cases argument with
      | array items => exact absurd rfl (hargument items)
      | _ => rfl
    | arity hcount => exact if_neg (Bool.eq_false_iff.1 hcount)
    | item hcount hitem =>
      rw [targetsOfJson, if_pos hcount]
      exact targetsOfItems_eq_error_iff.2 ⟨_, _, _, rfl, hitem⟩

/-- The argument of a connective cannot be read: it is no sequence, its length is not allowed, or
some item names no condition. -/
inductive Unreadable (connective : Connective) : Json → Prop
  | argument {argument : Json} (hargument : ∀ items, argument ≠ .array items) :
    Unreadable connective argument
  | arity {items : List Json} (hcount : connective.allows items.length = false) :
    Unreadable connective (.array items)
  | item {items : List Json} {item : Json} (hmem : item ∈ items)
    (hitem : ∀ target, item ≠ targetToJson target) : Unreadable connective (.array items)

/-- What can be read is a sequence of targets of an allowed length. -/
theorem not_unreadable_iff {connective : Connective} {argument : Json} :
    ¬ Unreadable connective argument ↔
      ∃ targets : List String, argument = .array (targets.map targetToJson) ∧
        connective.allows targets.length = true := by
  constructor
  · intro h
    cases hread : targetsOfJson connective argument with
    | ok targets => exact ⟨targets, targetsOfJson_eq_ok_iff.1 hread⟩
    | error fault =>
      refine absurd ?_ h
      cases targetsOfJson_eq_error_iff.1 hread with
      | notASequence hargument => exact .argument hargument
      | arity hcount => exact .arity hcount
      | item _ hitem =>
        exact .item (List.mem_append_right _ List.mem_cons_self)
          (exists_itemFault_iff.1 ⟨_, hitem⟩)
  · rintro ⟨targets, rfl, hcount⟩ h
    generalize hargument : Json.array (targets.map targetToJson) = argument at h
    cases h with
    | argument hnone => exact hnone _ hargument.symm
    | arity hother =>
      rw [← Json.array.inj hargument, List.length_map, hcount] at hother
      exact absurd hother (by simp)
    | item hmem hitem =>
      rw [← Json.array.inj hargument] at hmem
      obtain ⟨target, _, htarget⟩ := List.mem_map.1 hmem
      exact hitem target htarget.symm

/-- What cannot be read has a first fault. -/
theorem Unreadable.exists_firstFault {connective : Connective} {argument : Json}
    (h : Unreadable connective argument) : ∃ fault, FirstFault connective argument fault := by
  cases hread : targetsOfJson connective argument with
  | ok targets => exact absurd h (not_unreadable_iff.2 ⟨targets, targetsOfJson_eq_ok_iff.1 hread⟩)
  | error fault => exact ⟨fault, targetsOfJson_eq_error_iff.1 hread⟩

theorem FirstFault.ofJson_eq {connective : Connective} {argument : Json}
    {fault : CombinationFault} (h : FirstFault connective argument fault) :
    ofJson (.object [(connective.function, argument)]) =
      .error (.combination connective fault) := by
  rw [ofJson, ofFunction_function, combinationOfJson, targetsOfJson_eq_error_iff.2 h]

end TemplateConditions.Definition
