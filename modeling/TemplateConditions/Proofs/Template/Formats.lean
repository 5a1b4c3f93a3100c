import TemplateConditions.Proofs.Json.Reading
import TemplateConditions.Proofs.Template.ShortForms
import TemplateConditions.Template.Load

/-!
# The same data in both formats

JSON data can be written in YAML: arrays as sequences, objects as mappings with texts as keys, whose
entries stand in any order.  Such a value has the data as its JSON value again, with integers that
stay integers up to both ends of 64 bits and floats that stay floats.  So a template may be written
in either format.
-/

namespace TemplateConditions

namespace Yaml

/-! ## Numbers -/

/-- The integers below the greatest signed one are signed, and the rest are natural numbers. -/
theorem Number.toJson_int {n : Int} (h : (JsonNumber.int n).InRange) :
    (Number.int n).toJson = .number (.int n) := by
  have hlow : -(power 2 63 : Int) ≤ n := h.1
  unfold Number.toJson
  by_cases hsigned : n < power 2 63
  · rw [Number.signed?, if_pos ⟨hlow, hsigned⟩]
  · have hnonneg : 0 ≤ n := by omega
    rw [Number.signed?, if_neg (fun hboth => hsigned hboth.2), Number.unsigned?,
      if_pos ⟨hnonneg, h.2⟩]
    show Json.natural n.toNat = _
    rw [Json.natural, Int.toNat_of_nonneg hnonneg]

namespace Value

/-! ## Data in YAML -/

mutual

/-- A value holds the data of a JSON value; entries of a mapping may stand in any order. -/
inductive Carries : Value → Json → Prop
  | null : Carries .null .null
  | bool (value : Bool) : Carries (.bool value) (.bool value)
  | int (value : Int) : Carries (.number (.int value)) (.number (.int value))
  | float (value : Binary64) : Carries (.number (.float value)) (.number (.float value))
  | string (value : String) : Carries (.string value) (.string value)
  | sequence {items : List Value} {values : List Json} (hitems : CarriesItems items values) :
    Carries (.sequence items) (.array values)
  | mapping {entries ordered : List (Value × Value)} {members : Members}
    (hordered : ordered.Perm entries) (hentries : CarriesEntries ordered members) :
    Carries (.mapping entries) (.object members)

inductive CarriesItems : List Value → List Json → Prop
  | nil : CarriesItems [] []
  | cons {item : Value} {value : Json} {items : List Value} {values : List Json}
    (hitem : Carries item value) (hitems : CarriesItems items values) :
    CarriesItems (item :: items) (value :: values)

inductive CarriesEntries : List (Value × Value) → Members → Prop
  | nil : CarriesEntries [] []
  | cons {key : String} {item : Value} {value : Json} {entries : List (Value × Value)}
    {members : Members} (hitem : Carries item value) (hentries : CarriesEntries entries members) :
    CarriesEntries ((.string key, item) :: entries) ((key, value) :: members)

end

mutual

/-- The data of a JSON value, with the entries of mappings in ascending order. -/
def ofJson : Json → Value
  | .null => .null
  | .bool value => .bool value
  | .number (.int value) => .number (.int value)
  | .number (.float value) => .number (.float value)
  | .string value => .string value
  | .array items => .sequence (itemsOfJson items)
  | .object members => .mapping (entriesOfJson members)

def itemsOfJson : List Json → List Value
  | [] => []
  | item :: rest => ofJson item :: itemsOfJson rest

def entriesOfJson : Members → List (Value × Value)
  | [] => []
  | (key, value) :: rest => (.string key, ofJson value) :: entriesOfJson rest

end

mutual

theorem carries_ofJson : ∀ json : Json, (ofJson json).Carries json
  | .null => .null
  | .bool value => .bool value
  | .number (.int value) => .int value
  | .number (.float value) => .float value
  | .string value => .string value
  | .array items => .sequence (carriesItems_itemsOfJson items)
  | .object members => .mapping (List.Perm.refl _) (carriesEntries_entriesOfJson members)

theorem carriesItems_itemsOfJson : ∀ items : List Json, CarriesItems (itemsOfJson items) items
  | [] => .nil
  | item :: rest => .cons (carries_ofJson item) (carriesItems_itemsOfJson rest)

theorem carriesEntries_entriesOfJson : ∀ members : Members,
    CarriesEntries (entriesOfJson members) members
  | [] => .nil
  | (_, value) :: rest => .cons (carries_ofJson value) (carriesEntries_entriesOfJson rest)

end

/-! ## Entries in any order -/

theorem entriesToJson_cons_eq_ok_iff {key value : Value} {rest : List (Value × Value)}
    {members : Members} :
    entriesToJson ((key, value) :: rest) = .ok members ↔
      ∃ text json others, key.keyText? = some text ∧ value.toJson = .ok json ∧
        entriesToJson rest = .ok others ∧ members = (text, json) :: others := by
  rw [entriesToJson]
  cases key.keyText? with
  | none => simp
  | some text =>
    cases value.toJson with
    | error fault => simp [bind, Except.bind]
    | ok json =>
      cases entriesToJson rest with
      | error fault => simp [bind, Except.bind]
      | ok others => simp [bind, Except.bind, pure, Except.pure, eq_comm]

/-- Entries in another order have the same members in another order. -/
theorem entriesToJson_of_perm {entries ordered : List (Value × Value)}
    (h : ordered.Perm entries) : ∀ {members : Members}, entriesToJson ordered = .ok members →
      ∃ others, entriesToJson entries = .ok others ∧ members.Perm others := by
  induction h with
  | nil => exact fun hordered => ⟨_, hordered, List.Perm.refl _⟩
  | cons entry _ ih =>
    intro members hordered
    obtain ⟨text, json, rest, htext, hjson, hrest, rfl⟩ := entriesToJson_cons_eq_ok_iff.1 hordered
    obtain ⟨others, hothers, hperm⟩ := ih hrest
    exact ⟨_, entriesToJson_cons_eq_ok_iff.2 ⟨text, json, others, htext, hjson, hothers, rfl⟩,
      hperm.cons _⟩
  | swap first second rest =>
    intro members hordered
    obtain ⟨text, json, _, htext, hjson, htail, rfl⟩ := entriesToJson_cons_eq_ok_iff.1 hordered
    obtain ⟨text', json', others, htext', hjson', hothers, rfl⟩ :=
      entriesToJson_cons_eq_ok_iff.1 htail
    exact ⟨_, entriesToJson_cons_eq_ok_iff.2 ⟨text', json', _, htext', hjson',
      entriesToJson_cons_eq_ok_iff.2 ⟨text, json, others, htext, hjson, hothers, rfl⟩, rfl⟩,
      List.Perm.swap _ _ _⟩
  | trans _ _ ihfirst ihsecond =>
    intro members hordered
    obtain ⟨between, hbetween, hfirst⟩ := ihfirst hordered
    obtain ⟨others, hothers, hsecond⟩ := ihsecond hbetween
    exact ⟨others, hothers, hfirst.trans hsecond⟩

/-- Members with different keys make the same object in any order, and ascending ones stay. -/
theorem ofMembers_of_perm {members others : Members} (h : members.Perm others)
    (hascending : Ordered.Ascending members) : Json.ofMembers others = .object members := by
  rw [Json.ofMembers, ← Ordered.ofEntries_congr h hascending.nodup_keys,
    Ordered.ofEntries_eq_self hascending]

/-! ## Data that comes back -/

mutual

theorem Carries.toJson_eq {value : Value} {json : Json} (h : value.Carries json)
    (hformed : json.WellFormed) : value.toJson = .ok json :=
  match value, json, h with
  | _, _, .null => rfl
  | _, _, .bool _ => rfl
  | _, _, .int _ => by rw [toJson, Number.toJson_int hformed.inRange]
  | _, _, .float _ => rfl
  | _, _, .string _ => rfl
  | _, _, .sequence hitems => by rw [toJson_sequence, hitems.toJson_eq hformed]; rfl
  | _, _, .mapping hordered hentries => by
    obtain ⟨hascending, hmembers⟩ := Json.wellFormed_object.1 hformed
    obtain ⟨others, hothers, hperm⟩ :=
      entriesToJson_of_perm hordered (hentries.toJson_eq hmembers)
    rw [toJson_mapping, hothers, Except.map, ofMembers_of_perm hperm hascending]

theorem CarriesItems.toJson_eq {items : List Value} {values : List Json}
    (h : CarriesItems items values) (hformed : (Json.array values).WellFormed) :
    itemsToJson items = .ok values :=
  match items, values, h with
  | _, _, .nil => rfl
  | _, _, .cons hitem hitems => by
    obtain ⟨hfirst, hrest⟩ := Json.wellFormed_array_cons.1 hformed
    rw [itemsToJson, hitem.toJson_eq hfirst, hitems.toJson_eq hrest]
    rfl

theorem CarriesEntries.toJson_eq {entries : List (Value × Value)} {members : Members}
    (h : CarriesEntries entries members) (hformed : ∀ member ∈ members, member.2.WellFormed) :
    entriesToJson entries = .ok members :=
  match entries, members, h with
  | _, _, .nil => rfl
  | _, _, .cons hitem hentries => by
    obtain ⟨hfirst, hrest⟩ := List.forall_mem_cons.1 hformed
    exact entriesToJson_cons_eq_ok_iff.2
      ⟨_, _, _, rfl, hitem.toJson_eq hfirst, hentries.toJson_eq hrest, rfl⟩

end

/-! ## Main result -/

/-- Data that can be had in JSON can be had in YAML, and every YAML value that holds it has exactly
that JSON value, wherever the entries of its mappings stand.  So if one text holds some data in JSON
and another one the same data in YAML, both load as one template with the data as its root, with the
same conditions, trees and findings therefore, or both fail with the same error. -/
theorem json_data_loads_alike :
    (∀ json : Json, json.WellFormed →
      (ofJson json).Carries json ∧ ∀ value : Value, value.Carries json → value.toJson = .ok json) ∧
    ∀ (jsonText yamlText : String) (json : Json) (value : Value),
      Json.parse? jsonText = some json → Value.ofText yamlText = .ok value →
        value.Carries json →
          Template.ofYamlText yamlText = Template.ofJsonText jsonText ∧
            ∀ template, Template.ofYamlText yamlText = .ok template → template.root = json := by
  refine ⟨fun json hformed => ⟨carries_ofJson json, fun value h => h.toJson_eq hformed⟩, ?_⟩
  intro jsonText yamlText json value hjson hyaml hcarries
  -- What the JSON reader returns is in order and in range, so nothing is lost.
  have hvalue : value.toJson = .ok json := hcarries.toJson_eq (Json.wellFormed_of_parse? hjson)
  have hloaded : Template.ofYamlText yamlText = Template.ofJson json := by
    simp only [Template.ofYamlText, hyaml, hvalue]
  refine ⟨by rw [hloaded, Template.ofJsonText, hjson], fun template htemplate => ?_⟩
  rw [hloaded] at htemplate
  unfold Template.ofJson at htemplate
  split at htemplate
  · cases htemplate
    rfl
  · exact absurd htemplate (by simp)

/-- The negative zero and the greatest integer, in either order. -/
theorem bounds_load_alike :
    let jsonText := "\x7b\"a\": -0, \"b\": 18446744073709551615\x7d"
    let yamlText := "b: 18446744073709551615\na: -0.0"
    let zero := Json.number (.float (.zero true))
    let greatest := Json.number (.int 18446744073709551615)
    let value := Value.mapping [(.string "b", ofJson greatest), (.string "a", ofJson zero)]
    Json.parse? jsonText = some (.object [("a", zero), ("b", greatest)]) ∧
      Value.ofText yamlText = .ok value ∧ value.Carries (.object [("a", zero), ("b", greatest)]) ∧
      value.toJson = .ok (.object [("a", zero), ("b", greatest)]) ∧
      Template.ofYamlText yamlText = Template.ofJsonText jsonText := by
  intro jsonText yamlText zero greatest value
  have hjson : Json.parse? jsonText = some (.object [("a", zero), ("b", greatest)]) := by
    dsimp only [jsonText, zero, greatest]
    rfl
  have htokens : Token.ofText yamlText =
      .ok [.blockMappingStart, .key, .scalar true "b", .value,
        .scalar true "18446744073709551615", .key, .scalar true "a", .value,
        .scalar true "-0.0", .blockEnd] := by
    decide +kernel
  have hyaml : Value.ofText yamlText = .ok value := by
    unfold Value.ofText
    rw [htokens]
    rfl
  have hcarries : value.Carries (.object [("a", zero), ("b", greatest)]) :=
    .mapping (List.Perm.swap _ _ _)
      (.cons (carries_ofJson zero) (.cons (carries_ofJson greatest) .nil))
  obtain ⟨hsurvives, hloads⟩ := json_data_loads_alike
  exact ⟨hjson, hyaml, hcarries,
    (hsurvives _ (Json.wellFormed_of_parse? hjson)).2 value hcarries,
    (hloads jsonText yamlText _ value hjson hyaml hcarries).1⟩

end Value

end Yaml

end TemplateConditions
