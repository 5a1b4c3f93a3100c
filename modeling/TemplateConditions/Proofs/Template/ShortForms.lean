import TemplateConditions.Template.ShortForm

/-!
# Short forms written out

A YAML document loads alike with its short forms and with the functions that they stand for.  Writing
them out leaves no tag outside keys, and the JSON value, or the key because of which there is none,
stays the same.
-/

namespace TemplateConditions

/-! ## Names of tags -/

/-- The exclamation marks in front of a name do not count. -/
theorem shortName_append {marks name : String} (hmarks : ∀ mark ∈ marks.toList, mark = '!')
    (hname : name.toList.head? ≠ some '!') : shortName (marks ++ name) = name := by
  have hkept : name.toList.dropWhile (· = '!') = name.toList := by
    cases hcs : name.toList with
    | nil => rfl
    | cons first rest =>
      rw [hcs, List.head?_cons, ne_eq, Option.some.injEq] at hname
      exact List.dropWhile_cons_of_neg (by simpa using hname)
  rw [shortName, String.toList_append,
    List.dropWhile_append_of_pos (fun mark hmark => by simpa using hmarks mark hmark), hkept,
    String.ofList_toList]

/-- The text of a `GetAtt` is divided exactly if it has a point, and then at the first one. -/
theorem attributePath?_eq_some {name text resource property : String}
    (h : attributePath? name text = some (resource, property)) :
    name = "GetAtt" ∧ text = resource ++ "." ++ property ∧ '.' ∉ resource.toList := by
  unfold attributePath? at h
  split at h
  · rename_i hname
    obtain ⟨⟨before, after⟩, hsplit, heq⟩ := Option.map_eq_some_iff.1 h
    obtain ⟨rfl, rfl⟩ := Prod.mk.inj heq
    obtain ⟨htext, hbefore⟩ := Text.splitAt?_eq_some hsplit
    refine ⟨hname, ?_, by rwa [String.toList_ofList]⟩
    rw [← String.toList_inj, htext]
    simp
  · exact absurd h (by simp)

theorem attributePath?_eq_none {name text : String} (h : attributePath? name text = none)
    (hname : name = "GetAtt") : '.' ∉ text.toList := by
  rw [attributePath?, if_pos hname, Option.map_eq_none_iff] at h
  exact Text.splitAt?_eq_none h

namespace Yaml.Value

/-! ## JSON values of functions -/

theorem toJson_tagged (tag : String) (content : Value) :
    (Value.tagged tag content).toJson = content.toJson.map fun argument =>
      .object [(functionName (shortName tag), longArgument (shortName tag) argument)] := by
  rw [toJson]
  cases content.toJson <;> rfl

theorem toJson_mapping (entries : List (Value × Value)) :
    (Value.mapping entries).toJson = (entriesToJson entries).map Json.ofMembers := by
  rw [toJson]
  cases entriesToJson entries <;> rfl

theorem toJson_sequence (items : List Value) :
    (Value.sequence items).toJson = (itemsToJson items).map Json.array := by
  rw [toJson]
  cases itemsToJson items <;> rfl

/-- A mapping with one key is a function. -/
theorem toJson_function (function : String) (argument : Value) :
    (Value.mapping [(.string function, argument)]).toJson =
      argument.toJson.map fun argument => .object [(function, argument)] := by
  rw [toJson_mapping, entriesToJson, entriesToJson]
  cases argument.toJson <;> rfl

/-! ## Arguments -/

/-- The argument that a short form has when it is written out: resource and property for the text of
a `GetAtt` with a point in it, and otherwise the content of the short form, written out as well. -/
inductive WrittenArgument (name : String) (content : Value) : Value → Prop
  | divided {resource property : String} (hname : name = "GetAtt")
    (hcontent : content.toJson = .ok (.string (resource ++ "." ++ property)))
    (hfirst : '.' ∉ resource.toList) :
    WrittenArgument name content (.sequence [.string resource, .string property])
  | whole
    (hundivided : name = "GetAtt" → ∀ text, content.toJson = .ok (.string text) →
      '.' ∉ text.toList) : WrittenArgument name content content.expand

theorem writtenArgument_expandedArgument (name : String) (content : Value) :
    WrittenArgument name content (expandedArgument name content content.expand) := by
  unfold expandedArgument
  split
  · rename_i text hcontent
    split
    · rename_i resource property hpath
      obtain ⟨hname, rfl, hfirst⟩ := attributePath?_eq_some hpath
      exact .divided hname hcontent hfirst
    · rename_i hpath
      refine .whole fun hname other hother => ?_
      rw [hcontent, Except.ok.injEq, Json.string.injEq] at hother
      exact hother ▸ attributePath?_eq_none hpath hname
  · rename_i hcontent
    exact .whole fun _ text htext => absurd htext (hcontent text)

/-- The argument that is written out has the JSON value that the short form gives its argument. -/
theorem toJson_expandedArgument (name : String) {content expanded : Value}
    (h : expanded.toJson = content.toJson) :
    (expandedArgument name content expanded).toJson = content.toJson.map (longArgument name) := by
  unfold expandedArgument
  split
  · rename_i text hcontent
    rw [hcontent, Except.map, longArgument]
    split
    · rfl
    · rw [h, hcontent]
  · -- What is no text stays whole on both sides, and so does an error.
    rename_i hcontent
    rw [h]
    cases hjson : content.toJson with
    | error key => rfl
    | ok json =>
      cases json with
      | string text => exact absurd hjson (hcontent text)
      | null | bool | number | array | object => rfl

/-! ## No tags -/

mutual

/-- No tag stands in the value, keys apart. -/
def TagFree : Value → Prop
  | .sequence items => TagFreeItems items
  | .mapping entries => TagFreeEntries entries
  | .tagged _ _ => False
  | _ => True

def TagFreeItems : List Value → Prop
  | [] => True
  | item :: rest => item.TagFree ∧ TagFreeItems rest

def TagFreeEntries : List (Value × Value) → Prop
  | [] => True
  | (_, value) :: rest => value.TagFree ∧ TagFreeEntries rest

end

theorem tagFree_expandedArgument (name : String) (content : Value) {expanded : Value}
    (h : expanded.TagFree) : (expandedArgument name content expanded).TagFree := by
  unfold expandedArgument
  split
  · split
    · exact ⟨trivial, trivial, trivial⟩
    · exact h
  · exact h

mutual

theorem tagFree_expand : ∀ value : Value, value.expand.TagFree
  | .null | .bool _ | .number _ | .string _ => trivial
  | .sequence items => by
    rw [expand, TagFree]
    exact tagFreeItems_expand items
  | .mapping entries => by
    rw [expand, TagFree]
    exact tagFreeEntries_expand entries
  | .tagged tag content => by
    rw [expand, TagFree]
    exact ⟨tagFree_expandedArgument _ content (tagFree_expand content), trivial⟩

theorem tagFreeItems_expand : ∀ items : List Value, TagFreeItems (expandItems items)
  | [] => trivial
  | item :: rest => ⟨tagFree_expand item, tagFreeItems_expand rest⟩

theorem tagFreeEntries_expand : ∀ entries : List (Value × Value),
    TagFreeEntries (expandEntries entries)
  | [] => trivial
  | (_, value) :: rest => ⟨tagFree_expand value, tagFreeEntries_expand rest⟩

end

/-! ## The same JSON value -/

mutual

theorem toJson_expand : ∀ value : Value, value.expand.toJson = value.toJson
  | .null | .bool _ | .number _ | .string _ => rfl
  | .sequence items => by
    rw [expand, toJson_sequence, toJson_sequence, itemsToJson_expand items]
  | .mapping entries => by
    rw [expand, toJson_mapping, toJson_mapping, entriesToJson_expand entries]
  | .tagged tag content => by
    rw [expand, toJson_function, toJson_tagged, toJson_expandedArgument _ (toJson_expand content)]
    cases content.toJson <;> rfl

theorem itemsToJson_expand : ∀ items : List Value,
    itemsToJson (expandItems items) = itemsToJson items
  | [] => rfl
  | item :: rest => by
    rw [expandItems, itemsToJson, itemsToJson, toJson_expand item, itemsToJson_expand rest]

/-- A key stays as it is, so the first one without a text stays the first. -/
theorem entriesToJson_expand : ∀ entries : List (Value × Value),
    entriesToJson (expandEntries entries) = entriesToJson entries
  | [] => rfl
  | (key, value) :: rest => by
    rw [expandEntries, entriesToJson, entriesToJson, toJson_expand value,
      entriesToJson_expand rest]

end

/-! ## Main result -/

/-- Writing out all short forms outside keys leaves no tag there and keeps the JSON value, or the
key because of which there is none.  A tag is written out as the function of its name, which is
`Ref`, `Condition` or the name behind `Fn::`, whatever marks stand in front of it. -/
theorem expand_loads_alike (value : Value) :
    value.expand.TagFree ∧ value.expand.toJson = value.toJson ∧
      ∀ marks name content, value = .tagged (marks ++ name) content →
        (∀ mark ∈ marks.toList, mark = '!') → name.toList.head? ≠ some '!' →
          ∃ argument, WrittenArgument name content argument ∧
            value.expand = .mapping
              [(.string (if name = "Ref" ∨ name = "Condition" then name else "Fn::" ++ name),
                argument)] := by
  refine ⟨tagFree_expand value, toJson_expand value, ?_⟩
  rintro marks name content rfl hmarks hname
  refine ⟨_, writtenArgument_expandedArgument name content, ?_⟩
  rw [expand, shortName_append hmarks hname, functionName]

/-- The port of an endpoint: only the first point divides the text. -/
theorem expand_endpointPort :
    let port := Value.tagged "!GetAtt" (.string "Bucket.Endpoint.Port")
    let divided := Value.sequence [.string "Bucket", .string "Endpoint.Port"]
    (∀ mark ∈ "!".toList, mark = '!') ∧ "GetAtt".toList.head? ≠ some '!' ∧
      port.expand = .mapping [(.string "Fn::GetAtt", divided)] ∧
      WrittenArgument "GetAtt" (.string "Bucket.Endpoint.Port") divided ∧
      port.expand.toJson = port.toJson := by
  intro port divided
  have hmarks : ∀ mark ∈ "!".toList, mark = '!' := by simp
  have hname : "GetAtt".toList.head? ≠ some '!' := by decide
  have hport : port.expand = .mapping [(.string "Fn::GetAtt", divided)] := rfl
  obtain ⟨-, hjson, hfunction⟩ := expand_loads_alike port
  obtain ⟨argument, hwritten, hexpand⟩ := hfunction "!" "GetAtt" _ rfl hmarks hname
  have hargument : argument = divided := by
    rw [hport] at hexpand
    simpa using hexpand.symm
  exact ⟨hmarks, hname, hport, hargument ▸ hwritten, hjson⟩

end Yaml.Value

end TemplateConditions
