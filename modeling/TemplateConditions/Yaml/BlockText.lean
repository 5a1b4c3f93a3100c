import TemplateConditions.Text.Digits
import TemplateConditions.Yaml.Cursor

/-!
# Block scalars

Scalars that are written as indented lines: literal ones keep their line breaks, folded ones join
neighbouring lines by a space.
-/

namespace TemplateConditions.Yaml.Block

/-- What becomes of the line breaks at the end. -/
inductive Chomp where
  | strip
  | clip
  | keep
  deriving DecidableEq

/-- The indicators behind the bar or the angle: chomping, and the indentation relative to the
parent. -/
structure Header where
  chomp : Chomp := .clip
  increment : Option Nat := none

def chomp? : Option Char → Option Chomp
  | some '+' => some .keep
  | some '-' => some .strip
  | _ => none

/-- An indentation indicator, if there is a digit; zero is refused. -/
def increment (cur : Cursor) : Except Fault (Option Nat × Cursor) :=
  match cur.peek.bind Text.decimalValue? with
  | none => .ok (none, cur)
  | some 0 => .error .blockHeader
  | some n => .ok (some n, cur.skip)

/-- Reads the two indicators, which stand in either order. -/
def header (cur : Cursor) : Except Fault (Header × Cursor) := do
  match chomp? cur.peek with
  | some chomp =>
    let (increment, cur) ← increment cur.skip
    return (⟨chomp, increment⟩, cur)
  | none =>
    let (increment, cur) ← increment cur
    if increment.isNone then return ({}, cur)
    match chomp? cur.peek with
    | some chomp => return (⟨chomp, increment⟩, cur.skip)
    | none => return (⟨.clip, increment⟩, cur)

/-- Passes the indentation of a line: spaces up to the column `indent`, or all if that is none. -/
def skipIndent (indent : Option Nat) (cur : Cursor) : Cursor :=
  let spaces := (cur.span (· == ' ')).1.length
  match indent with
  | none => cur.skip spaces
  | some column => cur.skip (min spaces (column - cur.column))

/-- Reads empty lines and the indentation of the next one.  The state holds the line breaks and the
largest column that was reached. -/
def emptyLines (indent : Option Nat) (cur : Cursor) : Except Fault ((List Char × Nat) × Cursor) :=
  rounds (fun state cur =>
    let cur := skipIndent indent cur
    let state := (state.1, max state.2 cur.column)
    if cur.peek == some '\t' && indent.all (cur.column < ·) then .error .tab
    else
      match cur.takeBreak? with
      | some (b, next) => .ok (.again (state.1 ++ [b], state.2) next)
      | none => .ok (.stop state cur)) ([], 0) cur

/-- The text so far, the break that ended the last line, the empty lines behind it, and whether that
line started with a blank. -/
structure State where
  text : String := ""
  lastBreak : List Char := []
  emptyLines : List Char
  blankStart : Bool := false

/-- Reads one line of content and the empty lines behind it. -/
def step (literal : Bool) (indent : Nat) (state : State) (cur : Cursor) :
    Except Fault (Round State) := do
  if cur.column != indent || cur.atEnd then return .stop state cur
  let blankStart := cur.peek.any isSpaceOrTab
  let folded := !literal && state.lastBreak == ['\n'] && !state.blankStart && !blankStart
  let joint := if !folded then state.lastBreak else if state.emptyLines.isEmpty then [' '] else []
  let (line, cur) := cur.span (!isBreak ·)
  let text := state.text ++ String.ofList (joint ++ state.emptyLines ++ line)
  let (lastBreak, cur) : List Char × Cursor := match cur.takeBreak? with
    | some (b, next) => ([b], next)
    | none => ([], cur)
  let ((empty, _), cur) ← emptyLines (some indent) cur
  return .again { text, lastBreak, emptyLines := empty, blankStart } cur

/-- Reads a block scalar at its indicator.  `parent` is the indentation of the collection that it
stands in, -1 at the top; its own is the given one, or that of its first line. -/
def read (literal : Bool) (parent : Int) (cur : Cursor) : Except Fault (String × Cursor) := do
  let (header, cur) ← header cur.skip
  let some cur := cur.endLine? | throw .blockHeader
  let given := header.increment.map fun n => (max parent 0).toNat + n
  let ((empty, reached), cur) ← emptyLines given cur
  let indent := given.getD (max reached (max (parent + 1).toNat 1))
  let (state, cur) ← rounds (step literal indent) { emptyLines := empty } cur
  let tail := match header.chomp with
    | .strip => []
    | .clip => state.lastBreak
    | .keep => state.lastBreak ++ state.emptyLines
  return (state.text ++ String.ofList tail, cur)

end TemplateConditions.Yaml.Block
