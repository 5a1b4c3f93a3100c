import TemplateConditions.Proofs.Template.Formats

/-!
# Keys of mappings

JSON wants a text for every key.  A YAML value has a JSON value exactly if no mapping in it, keys
apart, has a key without a text; otherwise the first such key is reported, in the order of the
document.  Keys that differ in YAML may have one text, and then the last of their entries counts.
What a value holds stands at the same place in its JSON value.
-/

namespace TemplateConditions

/-! ## Places in a document -/

namespace Json

/-- A step into a JSON value: to an item of an array, or to what an object has at a key. -/
inductive Step where
  | item (index : Nat)
  | key (text : String)

/-- What stands at a step. -/
def child? : Json → Step → Option Json
  | .array items, .item index => items[index]?
  | .object members, .key text => Ordered.find? text members
  | _, _ => none

/-- What stands at a place. -/
def part? (json : Json) (path : List Step) : Option Json :=
  path.foldlM child? json

end Json

namespace Yaml.Value

/-- The value of the last entry whose key has the text. -/
def lastValue? (text : String) (entries : List (Value × Value)) : Option Value :=
  Ordered.last? (some text) (entries.map fun entry => (entry.1.keyText?, entry.2))

/-- What a value has for a step into its JSON value.  The content of a tag is for the argument of
the function that the tag stands for. -/
def child? : Value → Json.Step → Option Value
  | .sequence items, .item index => items[index]?
  | .mapping entries, .key text => lastValue? text entries
  | .tagged tag content, .key text =>
    if text = functionName (shortName tag) then some content else none
  | _, _ => none

/-- What a value has for a place in its JSON value. -/
def part? (value : Value) (path : List Json.Step) : Option Value :=
  path.foldlM child? value

/-! ## Keys in document order -/

/-- A null, a sequence, a mapping or a tagged value, which has no text as a key. -/
def Textless : Value → Prop
  | .null => True
  | .sequence _ => True
  | .mapping _ => True
  | .tagged _ _ => True
  | _ => False

/-- The first value stands somewhere in the second one, but not in a key. -/
inductive Inside : Value → Value → Prop
  | here (value : Value) : Inside value value
  | item {part item : Value} {items : List Value} (hitem : item ∈ items)
    (hpart : Inside part item) : Inside part (.sequence items)
  | entry {part key value : Value} {entries : List (Value × Value)}
    (hentry : (key, value) ∈ entries) (hpart : Inside part value) : Inside part (.mapping entries)
  | content {part content : Value} {tag : String} (hpart : Inside part content) :
    Inside part (.tagged tag content)

mutual

/-- The keys of all mappings in a value in the order of the document, without those that stand in
keys: each key comes before its own value. -/
def keys : Value → List Value
  | .sequence items => itemKeys items
  | .mapping entries => entryKeys entries
  | .tagged _ content => content.keys
  | _ => []

def itemKeys : List Value → List Value
  | [] => []
  | item :: rest => item.keys ++ itemKeys rest

def entryKeys : List (Value × Value) → List Value
  | [] => []
  | (key, value) :: rest => key :: (value.keys ++ entryKeys rest)

end

/-- The key is the first of the keys of a value that has no text. -/
def FirstTextless (value key : Value) : Prop :=
  ∃ before after, value.keys = before ++ key :: after ∧ key.Textless ∧
    ∀ other ∈ before, ¬ other.Textless

theorem keyText?_eq_none_iff {key : Value} : key.keyText? = none ↔ key.Textless := by
  cases key with
  | null | sequence | mapping | tagged => exact iff_of_true rfl trivial
  | bool | number | string => exact iff_of_false (by simp [keyText?]) id

theorem mem_itemKeys {key : Value} {items : List Value} :
    key ∈ itemKeys items ↔ ∃ item ∈ items, key ∈ item.keys := by
  induction items with
  | nil => simp [itemKeys]
  | cons item rest ih => rw [itemKeys, List.mem_append, ih, List.exists_mem_cons_iff]

theorem mem_entryKeys {key : Value} {entries : List (Value × Value)} :
    key ∈ entryKeys entries ↔ ∃ entry ∈ entries, key = entry.1 ∨ key ∈ entry.2.keys := by
  induction entries with
  | nil => simp [entryKeys]
  | cons entry rest ih =>
    rw [entryKeys, List.mem_cons, List.mem_append, ih, List.exists_mem_cons_iff, or_assoc]

/-- A value has the keys of everything in it. -/
theorem Inside.keys_subset {part value : Value} (h : part.Inside value) : part.keys ⊆ value.keys := by
  induction h with
  | here => exact List.Subset.refl _
  | item hitem _ ih =>
    intro key hkey
    rw [keys]
    exact mem_itemKeys.2 ⟨_, hitem, ih hkey⟩
  | entry hentry _ ih =>
    intro key hkey
    rw [keys]
    exact mem_entryKeys.2 ⟨_, hentry, .inr (ih hkey)⟩
  | content _ ih =>
    rw [keys]
    exact ih

mutual

theorem exists_inside_of_mem_keys {key : Value} : ∀ value : Value, key ∈ value.keys →
    ∃ entries item, (Value.mapping entries).Inside value ∧ (key, item) ∈ entries
  | .null, h | .bool _, h | .number _, h | .string _, h => absurd h List.not_mem_nil
  | .sequence items, h => by
    rw [keys] at h
    obtain ⟨item, hitem, entries, value, hinside, hkey⟩ := exists_inside_of_mem_itemKeys items h
    exact ⟨entries, value, .item hitem hinside, hkey⟩
  | .mapping entries, h => by
    rw [keys] at h
    rcases exists_inside_of_mem_entryKeys entries h with ⟨value, hkey⟩ | ⟨entry, hentry, hbelow⟩
    · exact ⟨entries, value, .here _, hkey⟩
    · obtain ⟨others, value, hinside, hkey⟩ := hbelow
      exact ⟨others, value, .entry hentry hinside, hkey⟩
  | .tagged _ content, h => by
    rw [keys] at h
    obtain ⟨entries, value, hinside, hkey⟩ := exists_inside_of_mem_keys content h
    exact ⟨entries, value, .content hinside, hkey⟩

theorem exists_inside_of_mem_itemKeys {key : Value} : ∀ items : List Value, key ∈ itemKeys items →
    ∃ item ∈ items, ∃ entries value, (Value.mapping entries).Inside item ∧ (key, value) ∈ entries
  | [], h => absurd h List.not_mem_nil
  | item :: rest, h => by
    rw [itemKeys] at h
    rcases List.mem_append.1 h with hfirst | hrest
    · exact ⟨item, List.mem_cons_self, exists_inside_of_mem_keys item hfirst⟩
    · obtain ⟨other, hother, hbelow⟩ := exists_inside_of_mem_itemKeys rest hrest
      exact ⟨other, List.mem_cons_of_mem item hother, hbelow⟩

theorem exists_inside_of_mem_entryKeys {key : Value} : ∀ entries : List (Value × Value),
    key ∈ entryKeys entries → (∃ value, (key, value) ∈ entries) ∨
      ∃ entry ∈ entries, ∃ others value,
        (Value.mapping others).Inside entry.2 ∧ (key, value) ∈ others
  | [], h => absurd h List.not_mem_nil
  | (first, value) :: rest, h => by
    rw [entryKeys] at h
    rcases List.mem_cons.1 h with rfl | hbehind
    · exact .inl ⟨value, List.mem_cons_self⟩
    · rcases List.mem_append.1 hbehind with hvalue | hrest
      · exact .inr ⟨_, List.mem_cons_self, exists_inside_of_mem_keys value hvalue⟩
      · rcases exists_inside_of_mem_entryKeys rest hrest with ⟨other, hkey⟩ | ⟨entry, hentry, hbelow⟩
        · exact .inl ⟨other, List.mem_cons_of_mem _ hkey⟩
        · exact .inr ⟨entry, List.mem_cons_of_mem _ hentry, hbelow⟩

end

/-- The keys of a value are the keys of the mappings in it. -/
theorem mem_keys {value key : Value} :
    key ∈ value.keys ↔
      ∃ entries item, (Value.mapping entries).Inside value ∧ (key, item) ∈ entries := by
  constructor
  · exact exists_inside_of_mem_keys value
  · rintro ⟨entries, item, hinside, hkey⟩
    apply hinside.keys_subset
    rw [keys]
    exact mem_entryKeys.2 ⟨_, hkey, .inl rfl⟩

/-! ## The first key without a text -/

/-- The result is the first of the keys without a text, and there is a value only if all have
one. -/
def Decides {α : Type} (keys : List Value) (result : Except Value α) : Prop :=
  match keys.find? fun key => key.keyText?.isNone with
  | some key => result = .error key
  | none => ∃ value, result = .ok value

section

variable {α β : Type} {front back : List Value} {result : Except Value α}

theorem decides_ok (value : α) : Decides [] (Except.ok value) := ⟨value, rfl⟩

theorem Decides.map (h : Decides front result) (f : α → β) : Decides front (result.map f) := by
  unfold Decides at h ⊢
  split at h
  · rw [h]
    rfl
  · obtain ⟨value, rfl⟩ := h
    exact ⟨f value, rfl⟩

/-- What comes next counts if there is a value so far, and then its keys come behind the others. -/
theorem Decides.bind {next : α → Except Value β} (h : Decides front result)
    (hnext : ∀ value, Decides back (next value)) : Decides (front ++ back) (result >>= next) := by
  unfold Decides at h ⊢
  rw [List.find?_append]
  split at h
  · rename_i key hfirst
    rw [hfirst, h]
    rfl
  · rename_i hnone
    obtain ⟨value, rfl⟩ := h
    rw [hnone, Option.none_or]
    exact hnext value

/-- A key with a text is passed over. -/
theorem Decides.cons {key : Value} {text : String} (hkey : key.keyText? = some text)
    (h : Decides back result) : Decides (key :: back) result := by
  unfold Decides at h ⊢
  rw [List.find?_cons_of_neg (by simp [hkey])]
  exact h

theorem decides_error {key : Value} (hkey : key.keyText? = none) (rest : List Value) :
    Decides (key :: rest) (Except.error key : Except Value α) := by
  unfold Decides
  rw [List.find?_cons_of_pos (by simp [hkey])]

end

theorem itemsToJson_cons (item : Value) (rest : List Value) :
    itemsToJson (item :: rest) =
      item.toJson >>= fun json => (itemsToJson rest).map (json :: ·) := by
  rw [itemsToJson]
  cases item.toJson with
  | error key => rfl
  | ok json => cases itemsToJson rest <;> rfl

theorem entriesToJson_cons {key : Value} {text : String} (hkey : key.keyText? = some text)
    (value : Value) (rest : List (Value × Value)) :
    entriesToJson ((key, value) :: rest) =
      value.toJson >>= fun json => (entriesToJson rest).map ((text, json) :: ·) := by
  rw [entriesToJson, hkey]
  cases value.toJson with
  | error fault => rfl
  | ok json => cases entriesToJson rest <;> rfl

mutual

theorem decides_toJson : ∀ value : Value, Decides value.keys value.toJson
  | .null | .bool _ | .number _ | .string _ => decides_ok _
  | .sequence items => by
    rw [keys, toJson_sequence]
    exact (decides_itemsToJson items).map _
  | .mapping entries => by
    rw [keys, toJson_mapping]
    exact (decides_entriesToJson entries).map _
  | .tagged _ content => by
    rw [keys, toJson_tagged]
    exact (decides_toJson content).map _

theorem decides_itemsToJson : ∀ items : List Value, Decides (itemKeys items) (itemsToJson items)
  | [] => decides_ok _
  | item :: rest => by
    rw [itemKeys, itemsToJson_cons]
    exact (decides_toJson item).bind fun _ => (decides_itemsToJson rest).map _

theorem decides_entriesToJson : ∀ entries : List (Value × Value),
    Decides (entryKeys entries) (entriesToJson entries)
  | [] => decides_ok _
  | (key, value) :: rest => by
    rw [entryKeys]
    cases hkey : key.keyText? with
    | none =>
      -- The key is reported before its value is looked at.
      rw [entriesToJson, hkey]
      exact decides_error hkey _
    | some text =>
      rw [entriesToJson_cons hkey]
      exact .cons hkey ((decides_toJson value).bind fun _ => (decides_entriesToJson rest).map _)

end

theorem toJson_eq_error_iff {value key : Value} :
    value.toJson = .error key ↔ value.FirstTextless key := by
  have hfirst : value.FirstTextless key ↔
      (value.keys.find? fun key => key.keyText?.isNone) = some key := by
    unfold FirstTextless
    simp only [List.find?_eq_some_iff_append, Option.isNone_iff_eq_none, keyText?_eq_none_iff,
      Bool.not_eq_true', ← Bool.not_eq_true]
    constructor
    · rintro ⟨before, after, hkeys, hkey, hbefore⟩
      exact ⟨hkey, before, after, hkeys, hbefore⟩
    · rintro ⟨hkey, before, after, hkeys, hbefore⟩
      exact ⟨before, after, hkeys, hkey, hbefore⟩
  have hdecides := decides_toJson value
  unfold Decides at hdecides
  rw [hfirst]
  split at hdecides
  · rename_i other hother
    rw [hother, hdecides, Except.error.injEq, Option.some.injEq]
  · rename_i hnone
    obtain ⟨json, hjson⟩ := hdecides
    rw [hnone, hjson]
    simp

/-- There is a JSON value if every key of every mapping has a text. -/
theorem exists_toJson_iff {value : Value} :
    (∃ json, value.toJson = .ok json) ↔ ∀ key ∈ value.keys, ¬ key.Textless := by
  have hdecides := decides_toJson value
  unfold Decides at hdecides
  split at hdecides
  · rename_i key hkey
    rw [hdecides]
    have hmem := List.mem_of_find?_eq_some hkey
    have htextless : key.keyText? = none := by simpa using List.find?_some hkey
    exact iff_of_false (by simp) fun h => h key hmem (keyText?_eq_none_iff.1 htextless)
  · rename_i hnone
    refine iff_of_true hdecides fun key hkey htextless => ?_
    have htext := List.find?_eq_none.1 hnone key hkey
    rw [keyText?_eq_none_iff.2 htextless] at htext
    exact htext rfl

theorem exists_toJson_error_iff {value : Value} :
    (∃ key, value.toJson = .error key) ↔ ∃ key ∈ value.keys, key.Textless := by
  have hfails : (∃ key, value.toJson = .error key) ↔ ¬ ∃ json, value.toJson = .ok json := by
    cases value.toJson <;> simp
  rw [hfails, exists_toJson_iff]
  push Not
  exact Iff.rfl

/-- The key is reported by the loader as it is by the conversion. -/
theorem ofYamlText_eq_unsupportedKey_iff {text : String} {value key : Value}
    (hvalue : Value.ofText text = .ok value) :
    Template.ofYamlText text = .error (.unsupportedKey key) ↔ value.toJson = .error key := by
  cases hjson : value.toJson with
  | error fault => simp [Template.ofYamlText, hvalue, hjson]
  | ok root =>
    -- A root that is no mapping is an error of another kind.
    have hroot : Template.ofJson root ≠ .error (.unsupportedKey key) := by
      cases root <;> simp [Template.ofJson]
    simpa [Template.ofYamlText, hvalue, hjson] using hroot

/-! ## The last entry of a text -/

theorem map_keyText?_of_entriesToJson {entries : List (Value × Value)} {members : Members}
    (h : entriesToJson entries = .ok members) :
    entries.map (fun entry => entry.1.keyText?) = members.map fun member => some member.1 := by
  induction entries generalizing members with
  | nil =>
    cases h
    rfl
  | cons entry rest ih =>
    obtain ⟨text, json, others, htext, -, hrest, rfl⟩ := entriesToJson_cons_eq_ok_iff.1 h
    rw [List.map_cons, List.map_cons, htext, ih hrest]

theorem mem_texts_iff {entries : List (Value × Value)} {members : Members}
    (h : entriesToJson entries = .ok members) {text : String} :
    text ∈ members.map Prod.fst ↔ ∃ entry ∈ entries, entry.1.keyText? = some text := by
  have hmem : some text ∈ entries.map (fun entry => entry.1.keyText?) ↔
      some text ∈ members.map fun member => some member.1 := by
    rw [map_keyText?_of_entriesToJson h]
  simpa [List.mem_map] using hmem.symm

/-- Entries in two parts give members in two parts. -/
theorem entriesToJson_append {before after : List (Value × Value)} {members : Members}
    (h : entriesToJson (before ++ after) = .ok members) :
    ∃ front back, members = front ++ back ∧ entriesToJson before = .ok front ∧
      entriesToJson after = .ok back := by
  induction before generalizing members with
  | nil => exact ⟨[], members, rfl, rfl, h⟩
  | cons entry rest ih =>
    obtain ⟨text, json, others, htext, hjson, hothers, rfl⟩ := entriesToJson_cons_eq_ok_iff.1 h
    obtain ⟨front, back, rfl, hfront, hback⟩ := ih hothers
    exact ⟨(text, json) :: front, back, rfl,
      entriesToJson_cons_eq_ok_iff.2 ⟨text, json, front, htext, hjson, hfront, rfl⟩, hback⟩

/-- The members of an object that a mapping becomes: for each text of a key, the JSON value of the
last entry whose key has that text. -/
structure LastEntries (entries : List (Value × Value)) (members : Members) : Prop where
  ascending : Ordered.Ascending members
  key_iff : ∀ text, text ∈ members.map Prod.fst ↔ ∃ entry ∈ entries, entry.1.keyText? = some text
  value_iff : ∀ text json, Ordered.find? text members = some json ↔
    ∃ before key item after, entries = before ++ (key, item) :: after ∧
      key.keyText? = some text ∧ (∀ entry ∈ after, entry.1.keyText? ≠ some text) ∧
      item.toJson = .ok json

/-- Nothing that comes before the last entry of a text counts. -/
theorem last?_of_last_entry {before after : List (Value × Value)} {key item : Value}
    {members : Members} {text : String}
    (h : entriesToJson (before ++ (key, item) :: after) = .ok members)
    (hkey : key.keyText? = some text) (hafter : ∀ entry ∈ after, entry.1.keyText? ≠ some text) :
    ∃ json, item.toJson = .ok json ∧ Ordered.last? text members = some json := by
  obtain ⟨front, back, rfl, -, hback⟩ := entriesToJson_append h
  obtain ⟨same, json, others, hsame, hitem, hothers, rfl⟩ := entriesToJson_cons_eq_ok_iff.1 hback
  rw [hkey, Option.some.injEq] at hsame
  subst hsame
  refine ⟨json, hitem, Ordered.last?_eq_some_iff_append.2 ⟨front, others, rfl, ?_⟩⟩
  intro member hmember heq
  have htext : text ∈ others.map Prod.fst := List.mem_map.2 ⟨member, hmember, heq⟩
  obtain ⟨entry, hentry, hagain⟩ := (mem_texts_iff hothers).1 htext
  exact hafter entry hentry hagain

theorem exists_last_entry {entries : List (Value × Value)} {text : String}
    (h : ∃ entry ∈ entries, entry.1.keyText? = some text) :
    ∃ before key item after, entries = before ++ (key, item) :: after ∧
      key.keyText? = some text ∧ ∀ entry ∈ after, entry.1.keyText? ≠ some text := by
  induction entries with
  | nil => exact absurd h (by simp)
  | cons entry rest ih =>
    by_cases hrest : ∃ later ∈ rest, later.1.keyText? = some text
    · obtain ⟨before, key, item, after, rfl, hlast⟩ := ih hrest
      exact ⟨entry :: before, key, item, after, rfl, hlast⟩
    · have hentry : entry.1.keyText? = some text :=
        (List.exists_mem_cons_iff _ entry rest).1 h |>.resolve_right hrest
      exact ⟨[], entry.1, entry.2, rest, rfl, hentry, fun later hlater hsame =>
        hrest ⟨later, hlater, hsame⟩⟩

theorem lastEntries_ofEntries {entries : List (Value × Value)} {members : Members}
    (h : entriesToJson entries = .ok members) :
    LastEntries entries (Ordered.ofEntries members) where
  ascending := Ordered.ascending_ofEntries members
  key_iff text := by
    rw [← Ordered.find?_isSome, Ordered.find?_ofEntries, Ordered.last?_isSome]
    exact mem_texts_iff h
  value_iff text json := by
    rw [Ordered.find?_ofEntries]
    constructor
    · intro hlast
      have htext : text ∈ members.map Prod.fst := by
        rw [← Ordered.last?_isSome, hlast]
        rfl
      obtain ⟨before, key, item, after, rfl, hkey, hafter⟩ :=
        exists_last_entry ((mem_texts_iff h).1 htext)
      obtain ⟨same, hitem, hsame⟩ := last?_of_last_entry h hkey hafter
      rw [hlast, Option.some.injEq] at hsame
      exact ⟨before, key, item, after, rfl, hkey, hafter, hsame ▸ hitem⟩
    · rintro ⟨before, key, item, after, rfl, hkey, hafter, hitem⟩
      obtain ⟨same, hsame, hlast⟩ := last?_of_last_entry h hkey hafter
      rw [hitem, Except.ok.injEq] at hsame
      exact hsame ▸ hlast

/-- Whatever stands in a value that has a JSON value has one, too. -/
theorem Inside.exists_toJson {part value : Value} (h : part.Inside value) {json : Json}
    (hjson : value.toJson = .ok json) : ∃ other, part.toJson = .ok other := by
  have hkeys := exists_toJson_iff.1 ⟨json, hjson⟩
  apply exists_toJson_iff.2
  intro key hkey
  exact hkeys key (h.keys_subset hkey)

theorem Inside.exists_object {entries : List (Value × Value)} {value : Value}
    (h : (Value.mapping entries).Inside value) {json : Json} (hjson : value.toJson = .ok json) :
    ∃ members, (Value.mapping entries).toJson = .ok (.object members) ∧
      LastEntries entries members := by
  obtain ⟨other, hother⟩ := h.exists_toJson hjson
  rw [toJson_mapping] at hother ⊢
  cases hmembers : entriesToJson entries with
  | error key =>
    rw [hmembers] at hother
    exact absurd hother (by simp [Except.map])
  | ok members => exact ⟨_, rfl, lastEntries_ofEntries hmembers⟩

/-! ## The JSON value of a part -/

theorem lastValue?_eq_some_iff {entries : List (Value × Value)} {text : String} {item : Value} :
    lastValue? text entries = some item ↔
      ∃ before key after, entries = before ++ (key, item) :: after ∧ key.keyText? = some text ∧
        ∀ entry ∈ after, entry.1.keyText? ≠ some text := by
  rw [lastValue?, Ordered.last?_eq_some_iff_append]
  constructor
  · rintro ⟨front, back, hentries, hback⟩
    obtain ⟨before, rest, rfl, -, hrest⟩ := List.map_eq_append_iff.1 hentries
    obtain ⟨⟨key, value⟩, after, rfl, hentry, rfl⟩ := List.map_eq_cons_iff.1 hrest
    obtain ⟨hkey, rfl⟩ := Prod.mk.inj hentry
    exact ⟨before, key, after, rfl, hkey, fun entry hentry =>
      hback _ (List.mem_map_of_mem hentry)⟩
  · rintro ⟨before, key, after, rfl, hkey, hafter⟩
    refine ⟨_, _, by rw [List.map_append, List.map_cons, hkey], fun entry hentry => ?_⟩
    obtain ⟨later, hlater, rfl⟩ := List.mem_map.1 hentry
    exact hafter later hlater

theorem getElem?_of_itemsToJson {items : List Value} {jsons : List Json}
    (h : itemsToJson items = .ok jsons) {index : Nat} {item : Value}
    (hitem : items[index]? = some item) :
    ∃ json, jsons[index]? = some json ∧ item.toJson = .ok json := by
  induction items generalizing jsons index with
  | nil => exact absurd hitem (by simp)
  | cons first rest ih =>
    rw [itemsToJson_cons] at h
    cases hfirst : first.toJson with
    | error key =>
      rw [hfirst] at h
      exact absurd h (by simp [bind, Except.bind])
    | ok json =>
      cases hrest : itemsToJson rest with
      | error key =>
        rw [hfirst, hrest] at h
        exact absurd h (by simp [bind, Except.bind, Except.map])
      | ok others =>
        rw [hfirst, hrest] at h
        obtain rfl := Except.ok.inj h
        cases index with
        | zero =>
          obtain rfl := Option.some.inj hitem
          exact ⟨json, rfl, hfirst⟩
        | succ index => exact ih hrest hitem

/-- A step into a value leads to what stands at this step into its JSON value.  Only a text may be
divided there, if it stands behind a tag. -/
theorem exists_child? {step : Json.Step} {value next : Value} {json : Json}
    (hjson : value.toJson = .ok json) (hnext : value.child? step = some next) :
    (∀ {part : Value}, part.Inside next → part.Inside value) ∧ ∃ other, next.toJson = .ok other ∧
      (json.child? step = some other ∨ ∃ text, other = .string text) := by
  cases value with
  | null | bool | number | string => exact absurd hnext (by simp [child?])
  | sequence items =>
    cases step with
    | key text => exact absurd hnext (by simp [child?])
    | item index =>
      rw [child?] at hnext
      rw [toJson_sequence] at hjson
      cases hitems : itemsToJson items with
      | error key =>
        rw [hitems] at hjson
        exact absurd hjson (by simp [Except.map])
      | ok jsons =>
        rw [hitems] at hjson
        obtain rfl := Except.ok.inj hjson
        obtain ⟨other, hfound, hother⟩ := getElem?_of_itemsToJson hitems hnext
        exact ⟨.item (List.mem_of_getElem? hnext), other, hother, .inl hfound⟩
  | mapping entries =>
    cases step with
    | item index => exact absurd hnext (by simp [child?])
    | key text =>
      obtain ⟨before, key, after, hentries, hkey, hafter⟩ := lastValue?_eq_some_iff.1 hnext
      have hentry : (key, next) ∈ entries := by
        rw [hentries]
        exact List.mem_append_right before List.mem_cons_self
      obtain ⟨members, hmembers, hlast⟩ := (Inside.here (mapping entries)).exists_object hjson
      obtain rfl := Except.ok.inj (hjson.symm.trans hmembers)
      obtain ⟨other, hother⟩ := (Inside.entry hentry (.here next)).exists_toJson hjson
      have hfound : Ordered.find? text members = some other :=
        (hlast.value_iff text other).2 ⟨before, key, next, after, hentries, hkey, hafter, hother⟩
      exact ⟨.entry hentry, other, hother, .inl hfound⟩
  | tagged tag content =>
    cases step with
    | item index => exact absurd hnext (by simp [child?])
    | key text =>
      rw [child?] at hnext
      obtain ⟨hname, hcontent⟩ := Option.ite_none_right_eq_some.1 hnext
      obtain rfl := Option.some.inj hcontent
      obtain ⟨argument, hargument⟩ := (Inside.content (.here content)).exists_toJson hjson
      rw [toJson_tagged, hargument] at hjson
      obtain rfl := Except.ok.inj hjson
      refine ⟨.content, argument, hargument, ?_⟩
      rw [Json.child?, ← hname, Ordered.find?_cons, if_pos rfl]
      cases argument with
      | string argument => exact .inr ⟨argument, rfl⟩
      | null | bool | number | array | object => exact .inl rfl

/-- The part of a value at a place has the JSON value that stands at this place, or is a text. -/
theorem exists_part? {path : List Json.Step} {value part : Value} {json : Json}
    (hjson : value.toJson = .ok json) (hpart : value.part? path = some part) :
    part.Inside value ∧ ∃ other, part.toJson = .ok other ∧
      (json.part? path = some other ∨ ∃ text, other = .string text) := by
  induction path generalizing value json with
  | nil =>
    obtain rfl := Option.some.inj hpart
    exact ⟨.here value, json, hjson, .inl rfl⟩
  | cons step path ih =>
    rw [part?, List.foldlM_cons] at hpart
    obtain ⟨next, hnext, hbelow⟩ := Option.bind_eq_some_iff.1 hpart
    obtain ⟨hinside, nextJson, hnextJson, hstep⟩ := exists_child? hjson hnext
    obtain ⟨hpartInside, other, hother, hplace⟩ := ih hnextJson hbelow
    refine ⟨hinside hpartInside, other, hother, ?_⟩
    rcases hstep with hstep | ⟨text, rfl⟩
    · rw [Json.part?, List.foldlM_cons, hstep]
      exact hplace
    -- Nothing stands in a text, so the place ends with it.
    · refine .inr (hplace.elim (fun hplace => ?_) id)
      cases path with
      | nil => exact ⟨text, (Option.some.inj hplace).symm⟩
      | cons => exact absurd hplace (by simp [Json.part?, Json.child?])

/-! ## Main result -/

/-- Whether a YAML value has a JSON value is up to the keys of the mappings in it.  There is none
exactly if some key has no text, and then the first such key is reported, when a template is loaded
as well.  Otherwise every mapping is an object with the texts of its keys, each with the JSON value
of the last entry that has the text, and this object stands where the mapping stands. -/
theorem keys_decide_toJson (value : Value) :
    ((∃ key, value.toJson = .error key) ↔
      ∃ entries key item, (Value.mapping entries).Inside value ∧ (key, item) ∈ entries ∧
        key.Textless) ∧
    (∀ key, key ∈ value.keys ↔
      ∃ entries item, (Value.mapping entries).Inside value ∧ (key, item) ∈ entries) ∧
    (∀ key, value.toJson = .error key ↔ value.FirstTextless key) ∧
    (∀ text key, Value.ofText text = .ok value →
      (Template.ofYamlText text = .error (.unsupportedKey key) ↔ value.FirstTextless key)) ∧
    ∀ json, value.toJson = .ok json → ∀ entries,
      ((Value.mapping entries).Inside value →
        ∃ members, (Value.mapping entries).toJson = .ok (.object members) ∧
          LastEntries entries members) ∧
      ∀ path, value.part? path = some (.mapping entries) →
        (Value.mapping entries).Inside value ∧ ∃ members,
          json.part? path = some (.object members) ∧
          (Value.mapping entries).toJson = .ok (.object members) ∧
          LastEntries entries members := by
  refine ⟨?_, fun key => mem_keys, fun key => toJson_eq_error_iff, ?_, ?_⟩
  · rw [exists_toJson_error_iff]
    simp only [mem_keys]
    constructor
    · rintro ⟨key, ⟨entries, item, hinside, hkey⟩, htextless⟩
      exact ⟨entries, key, item, hinside, hkey, htextless⟩
    · rintro ⟨entries, key, item, hinside, hkey, htextless⟩
      exact ⟨key, ⟨entries, item, hinside, hkey⟩, htextless⟩
  · intro text key hvalue
    rw [ofYamlText_eq_unsupportedKey_iff hvalue, toJson_eq_error_iff]
  · intro json hjson entries
    refine ⟨fun hinside => hinside.exists_object hjson, fun path hpart => ?_⟩
    obtain ⟨hinside, other, hother, hplace⟩ := exists_part? hjson hpart
    obtain ⟨members, hmembers, hlast⟩ := hinside.exists_object hjson
    obtain rfl := Except.ok.inj (hother.symm.trans hmembers)
    exact ⟨hinside, members, hplace.resolve_right (by simp), hmembers, hlast⟩

/-- A sequence and a null are keys, and the sequence comes first; a number and a text are one key in
JSON, and the value of the text stays, in the argument of the function that the tag stands for. -/
theorem first_textless_sequence :
    let text := "k: \x7b1: a, [x]: b, ~: c\x7d"
    let refused := Value.mapping [(.string "k", .mapping [(.number (.int 1), .string "a"),
      (.sequence [.string "x"], .string "b"), (.null, .string "c")])]
    let entries := [(Value.number (.int 1), Value.string "old"), (.string "1", .string "new")]
    let accepted := Value.tagged "!Sub" (.mapping entries)
    let json := Json.object [("Fn::Sub", .object [("1", .string "new")])]
    Value.ofText text = .ok refused ∧
      Template.ofYamlText text = .error (.unsupportedKey (.sequence [.string "x"])) ∧
      accepted.toJson = .ok json ∧ accepted.part? [.key "Fn::Sub"] = some (.mapping entries) ∧
      ∃ members, json.part? [.key "Fn::Sub"] = some (.object members) ∧
        (Value.mapping entries).toJson = .ok (.object members) ∧
        Ordered.find? "1" members = some (.string "new") := by
  intro text refused entries accepted json
  have htokens : Token.ofText text =
      .ok [.blockMappingStart, .key, .scalar true "k", .value, .flowMappingStart, .key,
        .scalar true "1", .value, .scalar true "a", .flowEntry, .key, .flowSequenceStart,
        .scalar true "x", .flowSequenceEnd, .value, .scalar true "b", .flowEntry, .key,
        .scalar true "~", .value, .scalar true "c", .flowMappingEnd, .blockEnd] := by
    decide +kernel
  have hvalue : Value.ofText text = .ok refused := by
    unfold Value.ofText
    rw [htokens]
    rfl
  have hfirst : refused.FirstTextless (.sequence [.string "x"]) :=
    ⟨[.string "k", .number (.int 1)], [.null], rfl, trivial, by simp [Textless]⟩
  have hjson : accepted.toJson = .ok json := rfl
  have hpart : accepted.part? [.key "Fn::Sub"] = some (.mapping entries) := rfl
  obtain ⟨-, -, -, hloads, -⟩ := keys_decide_toJson refused
  obtain ⟨-, -, -, -, hobjects⟩ := keys_decide_toJson accepted
  obtain ⟨-, members, hplace, hmembers, hlast⟩ := (hobjects json hjson entries).2 _ hpart
  refine ⟨hvalue, (hloads text _ hvalue).2 hfirst, hjson, hpart, members, hplace, hmembers, ?_⟩
  exact (hlast.value_iff "1" (.string "new")).2
    ⟨[(.number (.int 1), .string "old")], .string "1", .string "new", [], rfl, rfl, by simp, rfl⟩

end Yaml.Value

end TemplateConditions
