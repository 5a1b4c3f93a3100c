import TemplateConditions.Json.Reader
import TemplateConditions.Proofs.Ordered.Entries

/-!
# Values that are read

What the reader returns is well formed: objects have strictly ascending keys, however often and in
whatever order the text writes them, and integers fit 64 bits, signed or unsigned.
-/

namespace TemplateConditions

/-! ## Numbers -/

namespace JsonNumber

/-- Floats apart, 64 bits hold the number, signed or unsigned. -/
def InRange : JsonNumber → Prop
  | .int value => -(power 2 63 : Int) ≤ value ∧ value < power 2 64
  | .float _ => True

theorem collect_lt {n : Nat} (h : n < power 2 64) (digits : List Nat) :
    (collect n digits).1 < power 2 64 := by
  induction digits generalizing n with
  | nil => exact h
  | cons d rest ih =>
    unfold collect
    split
    · rename_i hfits
      exact ih hfits
    · exact h

/-- A minus sign leaves an integer only where signed 64 bits hold it. -/
theorem inRange_of_ofParts? {parts : Parts} {n : JsonNumber}
    (h : ofParts? parts = some n) : n.InRange := by
  have hwhole : (collect 0 parts.whole).1 < power 2 64 :=
    collect_lt (power_pos (by decide) 64) parts.whole
  unfold ofParts? at h
  split at h
  rename_i kept dropped hcollect
  rw [hcollect] at hwhole
  split at h
  · split at h
    · -- A natural number.
      cases h
      have hlow : (0 : Int) ≤ power 2 63 := Int.natCast_nonneg _
      exact ⟨by omega, Int.ofNat_lt.2 hwhole⟩
    · split at h
      · obtain ⟨x, -, rfl⟩ := Option.map_eq_some_iff.1 h
        trivial
      · -- A negative integer.
        rename_i hbound
        cases h
        have hhigh : (0 : Int) ≤ power 2 64 := Int.natCast_nonneg _
        constructor <;> omega
  · simp only [Option.bind_eq_bind, Option.bind_eq_some_iff, Option.pure_def,
      Option.some.injEq] at h
    obtain ⟨x, -, y, -, rfl⟩ := h
    trivial

theorem inRange_of_read? {cs rest : List Char} {n : JsonNumber}
    (h : read? cs = some (n, rest)) : n.InRange := by
  unfold read? at h
  simp only [Option.bind_eq_bind, Option.bind_eq_some_iff, Option.pure_def, Option.some.injEq,
    Prod.exists, Prod.mk.injEq] at h
  obtain ⟨_, _, -, _, _, -, _, _, -, value, hvalue, rfl, -⟩ := h
  exact inRange_of_ofParts? hvalue

end JsonNumber

namespace Json

/-! ## Well-formed values -/

mutual

/-- All numbers in the value are in range. -/
def NumbersInRange : Json → Prop
  | .number n => n.InRange
  | .array items => ItemsInRange items
  | .object members => MembersInRange members
  | _ => True

def ItemsInRange : List Json → Prop
  | [] => True
  | item :: rest => item.NumbersInRange ∧ ItemsInRange rest

def MembersInRange : Members → Prop
  | [] => True
  | (_, value) :: rest => value.NumbersInRange ∧ MembersInRange rest

end

/-- A value that can be had: its objects are in order, and its integers fit 64 bits. -/
structure WellFormed (json : Json) : Prop where
  canonical : json.Canonical
  inRange : json.NumbersInRange

theorem wellFormed_array_nil : (Json.array []).WellFormed := ⟨trivial, trivial⟩

theorem wellFormed_array_cons {item : Json} {rest : List Json} :
    (Json.array (item :: rest)).WellFormed ↔ item.WellFormed ∧ (Json.array rest).WellFormed :=
  ⟨fun ⟨⟨hitem, hrest⟩, hitem', hrest'⟩ => ⟨⟨hitem, hitem'⟩, hrest, hrest'⟩,
    fun ⟨⟨hitem, hitem'⟩, hrest, hrest'⟩ => ⟨⟨hitem, hrest⟩, hitem', hrest'⟩⟩

theorem canonicalMembers_iff {members : Members} :
    CanonicalMembers members ↔ ∀ member ∈ members, member.2.Canonical := by
  induction members with
  | nil => simp [CanonicalMembers]
  | cons member rest ih => rw [CanonicalMembers, ih, List.forall_mem_cons]

theorem membersInRange_iff {members : Members} :
    MembersInRange members ↔ ∀ member ∈ members, member.2.NumbersInRange := by
  induction members with
  | nil => simp [MembersInRange]
  | cons member rest ih => rw [MembersInRange, ih, List.forall_mem_cons]

theorem wellFormed_object {members : Members} :
    (Json.object members).WellFormed ↔
      Ordered.Ascending members ∧ ∀ member ∈ members, member.2.WellFormed := by
  constructor
  · rintro ⟨⟨hascending, hcanonical⟩, hrange⟩
    exact ⟨hascending, fun member hmem =>
      ⟨canonicalMembers_iff.1 hcanonical member hmem, membersInRange_iff.1 hrange member hmem⟩⟩
  · rintro ⟨hascending, hmembers⟩
    exact ⟨⟨hascending, canonicalMembers_iff.2 fun member hmem => (hmembers member hmem).canonical⟩,
      membersInRange_iff.2 fun member hmem => (hmembers member hmem).inRange⟩

theorem wellFormed_ofMembers {members : Members}
    (h : ∀ member ∈ members, member.2.WellFormed) : (ofMembers members).WellFormed :=
  wellFormed_object.2 ⟨Ordered.ascending_ofEntries members, fun member hmem =>
    h member (Ordered.mem_of_mem_ofEntries hmem)⟩

/-! ## Reading -/

/-- What a reader of values returns is well formed. -/
def ReadsWell (value : List Char → Reading) : Prop :=
  ∀ cs json rest, value cs = some (json, rest) → json.WellFormed

theorem wellFormed_of_readItems? {value : List Char → Reading} (hvalue : ReadsWell value) :
    ∀ (fuel : Nat) {cs rest : List Char} {items : List Json},
      readItems? value fuel cs = some (items, rest) → (Json.array items).WellFormed
  | 0, _, _, _, h => by simp [readItems?] at h
  | fuel + 1, cs, rest, items, h => by
    simp only [readItems?, Option.bind_eq_bind, Option.bind_eq_some_iff] at h
    obtain ⟨⟨item, behind⟩, hitem, h⟩ := h
    have hfirst : item.WellFormed := hvalue _ _ _ hitem
    split at h
    · simp only [Option.pure_def, Option.some.injEq, Prod.mk.injEq] at h
      obtain ⟨rfl, -⟩ := h
      exact wellFormed_array_cons.2 ⟨hfirst, wellFormed_array_nil⟩
    · simp only [Option.bind_eq_some_iff, Option.pure_def, Option.some.injEq, Prod.mk.injEq] at h
      obtain ⟨⟨others, _⟩, hothers, rfl, -⟩ := h
      exact wellFormed_array_cons.2 ⟨hfirst, wellFormed_of_readItems? hvalue fuel hothers⟩
    · exact absurd h (by simp)

theorem wellFormed_of_readMember? {value : List Char → Reading} (hvalue : ReadsWell value)
    {fuel : Nat} {cs rest : List Char} {member : String × Json}
    (h : readMember? value fuel cs = some (member, rest)) : member.2.WellFormed := by
  simp only [readMember?, Option.bind_eq_bind, Option.bind_eq_some_iff] at h
  obtain ⟨_, -, h⟩ := h
  split at h
  · simp only [Option.bind_eq_some_iff, Option.pure_def, Option.some.injEq, Prod.mk.injEq] at h
    obtain ⟨⟨item, _⟩, hitem, rfl, -⟩ := h
    exact hvalue _ _ _ hitem
  · exact absurd h (by simp)

theorem wellFormed_of_readMembers? {value : List Char → Reading} (hvalue : ReadsWell value) :
    ∀ (fuel : Nat) {cs rest : List Char} {members : Members},
      readMembers? value fuel cs = some (members, rest) → ∀ member ∈ members, member.2.WellFormed
  | 0, _, _, _, h => by simp [readMembers?] at h
  | fuel + 1, cs, rest, members, h => by
    simp only [readMembers?, Option.bind_eq_bind, Option.bind_eq_some_iff] at h
    obtain ⟨⟨member, behind⟩, hmember, h⟩ := h
    have hfirst : member.2.WellFormed := wellFormed_of_readMember? hvalue hmember
    split at h
    · simp only [Option.pure_def, Option.some.injEq, Prod.mk.injEq] at h
      obtain ⟨rfl, -⟩ := h
      exact List.forall_mem_singleton.2 hfirst
    · simp only [Option.bind_eq_some_iff, Option.pure_def, Option.some.injEq, Prod.mk.injEq] at h
      obtain ⟨⟨others, _⟩, hothers, rfl, -⟩ := h
      exact List.forall_mem_cons.2 ⟨hfirst, wellFormed_of_readMembers? hvalue fuel hothers⟩
    · exact absurd h (by simp)

/-- A value that is made of what was read before. -/
theorem wellFormed_of_map {α : Type} {read : Option α} {make : α → Json × List Char}
    {json : Json} {rest : List Char} (h : read.map make = some (json, rest))
    (hmake : ∀ part, read = some part → (make part).1.WellFormed) : json.WellFormed := by
  obtain ⟨part, hread, heq⟩ := Option.map_eq_some_iff.1 h
  have hpart : (make part).1.WellFormed := hmake part hread
  rwa [heq] at hpart

theorem readsWell_readValue? (fuel depth : Nat) : ReadsWell (readValue? fuel depth) := by
  induction depth using Nat.strongRecOn with
  | _ depth ih =>
    intro cs json rest h
    unfold readValue? at h
    split at h
    · exact wellFormed_of_map h fun _ _ => ⟨trivial, trivial⟩
    · exact wellFormed_of_map h fun _ _ => ⟨trivial, trivial⟩
    · exact wellFormed_of_map h fun _ _ => ⟨trivial, trivial⟩
    · exact wellFormed_of_map h fun _ _ => ⟨trivial, trivial⟩
    · -- An array, whose items are read one level below.
      split at h
      · exact absurd h (by simp)
      · rename_i below
        split at h
        · cases h
          exact wellFormed_array_nil
        · exact wellFormed_of_map h fun _ hitems =>
            wellFormed_of_readItems? (ih below (Nat.lt_succ_self below)) fuel hitems
    · -- An object, likewise.
      split at h
      · exact absurd h (by simp)
      · rename_i below
        split at h
        · cases h
          exact wellFormed_object.2 ⟨List.Pairwise.nil, fun _ h => absurd h List.not_mem_nil⟩
        · exact wellFormed_of_map h fun _ hmembers => wellFormed_ofMembers
            (wellFormed_of_readMembers? (ih below (Nat.lt_succ_self below)) fuel hmembers)
    · exact wellFormed_of_map h fun _ hnumber => ⟨trivial, JsonNumber.inRange_of_read? hnumber⟩

/-- Whatever text a value is read from, it is well formed. -/
theorem wellFormed_of_parse? {text : String} {json : Json} (h : parse? text = some json) :
    json.WellFormed := by
  simp only [parse?] at h
  split at h
  · rename_i value rest hread
    split at h
    · cases h
      exact readsWell_readValue? _ _ _ _ _ hread
    · exact absurd h (by simp)
  · exact absurd h (by simp)

end Json

end TemplateConditions
