import TemplateConditions.Ordered.Map
import TemplateConditions.Yaml.Node
import TemplateConditions.Yaml.Scalar

/-!
# Documents

From the text of a document to its value: aliases are replaced by what they stand for, scalars and
tags get their meaning, and no mapping may hold a key twice.
-/

namespace TemplateConditions.Yaml

/-! ## Anchors

An anchor gets the slot whose number is the count of different anchors before it.  An anchor that is
set again gets a new slot without adding to that count, so the anchor after it shares the slot.  An
alias means the slot of its anchor at that place, and a slot holds the last node that got it.
-/

/-- The slots of the anchors so far. -/
abbrev Slots := List (String × Nat)

namespace Node

/-- Gives an anchor its slot. -/
def assignSlot (slots : Slots) (marks : Marks String) : Slots × Marks Nat :=
  match marks.anchor with
  | some name => (Ordered.insert name slots.length slots, ⟨some slots.length, marks.tag⟩)
  | none => (slots, ⟨none, marks.tag⟩)

mutual

/-- Replaces the names of anchors by their slots, in document order. -/
def withSlots (slots : Slots) : Node String → Except Fault (Slots × Node Nat)
  | .alias name =>
    match Ordered.find? name slots with
    | some slot => .ok (slots, .alias slot)
    | none => .error .unknownAnchor
  | .scalar marks plain text =>
    let (slots, marks) := assignSlot slots marks
    .ok (slots, .scalar marks plain text)
  | .sequence marks items => do
    let (slots, marks) := assignSlot slots marks
    let (slots, items) ← itemsWithSlots slots items
    return (slots, .sequence marks items)
  | .mapping marks entries => do
    let (slots, marks) := assignSlot slots marks
    let (slots, entries) ← entriesWithSlots slots entries
    return (slots, .mapping marks entries)

def itemsWithSlots (slots : Slots) :
    List (Node String) → Except Fault (Slots × List (Node Nat))
  | [] => .ok (slots, [])
  | item :: rest => do
    let (slots, item) ← item.withSlots slots
    let (slots, rest) ← itemsWithSlots slots rest
    return (slots, item :: rest)

def entriesWithSlots (slots : Slots) :
    List (Node String × Node String) → Except Fault (Slots × List (Node Nat × Node Nat))
  | [] => .ok (slots, [])
  | (key, value) :: rest => do
    let (slots, key) ← key.withSlots slots
    let (slots, value) ← value.withSlots slots
    let (slots, rest) ← entriesWithSlots slots rest
    return (slots, (key, value) :: rest)

end

/-- What a document is, as far as aliases go: the nodes of all slots, where the last one with a
slot counts, and the number of events in which the document is told.  A scalar and an alias are one
event each, and a collection is one at its start and one at its end. -/
structure Extent where
  anchored : List (Nat × Node Nat) := []
  events : Nat := 0

/-- Adds the start of a node: it takes its slot. -/
def Extent.enter (extent : Extent) (marks : Marks Nat) (node : Node Nat) (events : Nat) : Extent :=
  match marks.anchor with
  | some slot => ⟨Ordered.insert slot node extent.anchored, extent.events + events⟩
  | none => ⟨extent.anchored, extent.events + events⟩

mutual

/-- Adds a node to what is there before it. -/
def extent (before : Extent) : Node Nat → Extent
  | .alias _ => { before with events := before.events + 1 }
  | .scalar marks plain text => before.enter marks (.scalar marks plain text) 1
  | .sequence marks items => itemsExtent (before.enter marks (.sequence marks items) 2) items
  | .mapping marks entries => entriesExtent (before.enter marks (.mapping marks entries) 2) entries

def itemsExtent (before : Extent) : List (Node Nat) → Extent
  | [] => before
  | item :: rest => itemsExtent (item.extent before) rest

def entriesExtent (before : Extent) : List (Node Nat × Node Nat) → Extent
  | [] => before
  | (key, value) :: rest => entriesExtent (value.extent (key.extent before)) rest

end

/-! ## Values -/

/-- Reading values counts the aliases that were followed. -/
abbrev Following (α : Type) := StateT Nat (Except Fault) α

/-- Follows an alias.  A document may follow a hundred aliases for each of its events. -/
def follow (extent : Extent) (slot : Nat) : Following (Node Nat) := fun count =>
  if extent.events * 100 ≤ count then .error .repetition
  else
    match Ordered.find? slot extent.anchored with
    | some node => .ok (node, count + 1)
    | none => .error .unknownAnchor

/-- The value of a scalar. -/
def scalarValue (marks : Marks Nat) (plain : Bool) (text : String) : Except Fault Value :=
  match marks.tag with
  | none => Scalar.untaggedValue plain text
  | some tag =>
    match tag.privateName? with
    | some name => (Scalar.untaggedValue plain text).map (.tagged name)
    | none => Scalar.taggedValue tag plain text

/-- The name of the private tag in the marks. -/
def tagName? (marks : Marks Nat) : Option String :=
  marks.tag.bind Tag.privateName?

/-- Puts a tag around a value. -/
def wrap (name : Option String) (value : Value) : Value :=
  match name with
  | some name => .tagged name value
  | none => value

/-- Are the keys of a mapping all different? -/
def distinctKeys : List (Value × Value) → Bool
  | [] => true
  | (key, _) :: rest => !(rest.any fun other => key.same other.1) && distinctKeys rest

/-- Follows an alias and passes any other node. -/
def target (extent : Extent) : Node Nat → Following (Node Nat)
  | .alias slot => follow extent slot
  | node => return node

/-- The value of a node that is no alias.  What nests in it is read by `inner`, if anything may. -/
def contentValue (inner : Option (Node Nat → Following Value)) : Node Nat → Following Value
  | .alias _ => fun _ => .error .unknownAnchor
  | .scalar marks plain text => liftM (scalarValue marks plain text)
  | .sequence marks items =>
    match inner with
    | none => fun _ => .error .nesting
    | some inner => do
      let items ← items.mapM inner
      return wrap (tagName? marks) (.sequence items)
  | .mapping marks entries =>
    match inner with
    | none => fun _ => .error .nesting
    | some inner => do
      let entries ← entries.mapM fun (key, content) => do
        return (← inner key, ← inner content)
      if !distinctKeys entries then fun _ => .error .duplicateKey
      else return wrap (tagName? marks) (.mapping entries)

/-- The value of a node in which sequences and mappings nest at most `depth` deep. -/
def value (extent : Extent) : Nat → Node Nat → Following Value
  | 0, node => do contentValue none (← target extent node)
  | depth + 1, node => do contentValue (some (value extent depth)) (← target extent node)

end Node

/-! ## Texts -/

/-- The value of a document with the given root. -/
def Value.ofNode (root : Node String) : Except Fault Value := do
  let (_, root) ← root.withSlots []
  let (value, _) ← (Node.value (root.extent {}) Node.maxDepth root).run 0
  return value

/-- The value of a text that holds one document; a text without documents is null. -/
def Value.ofText (text : String) : Except Fault Value := do
  match ← Node.ofTokens (← Token.ofText text) with
  | some root => Value.ofNode root
  | none => return .null

end TemplateConditions.Yaml
