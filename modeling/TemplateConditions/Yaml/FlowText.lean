import TemplateConditions.Text.Digits
import TemplateConditions.Yaml.Cursor

/-!
# Plain and quoted scalars

The scalars that are written in running text.  Line breaks inside them are folded, and the blanks
around a break are dropped.
-/

namespace TemplateConditions.Yaml

/-! ## Plain scalars -/

namespace Plain

/-- The characters that structure a flow collection and cannot be part of a plain scalar in it. -/
def isFlowIndicator (c : Char) : Bool :=
  c == ',' || c == '[' || c == ']' || c == '\x7b' || c == '\x7d'

/-- Is the scalar over before this character?  A colon ends it before a blank. -/
def endsAt (flow : Bool) (c : Char) (next : Option Char) : Bool :=
  isSpaceOrTab c || isBreak c || (flow && isFlowIndicator c)
    || (c == ':' && next.all fun d => isSpaceOrTab d || isBreak d)

/-- The characters up to the end of the word or of the scalar.  In a flow collection a colon may
not stand before an indicator. -/
def word (flow : Bool) : List Char → Except Fault (List Char)
  | [] => .ok []
  | c :: rest =>
    if flow && c == ':' && rest.head?.any (fun d => isFlowIndicator d || d == '?') then
      .error .unexpectedColon
    else if endsAt flow c rest.head? then .ok []
    else
      match word flow rest with
      | .ok cs => .ok (c :: cs)
      | .error fault => .error fault

/-- The text so far, and the gap behind it. -/
structure State where
  text : String := ""
  gap : Gap := .blanks []

/-- Reads one word and the gap behind it. -/
def step (flow : Bool) (indent : Nat) (state : State) (cur : Cursor) :
    Except Fault (Round State) := do
  if cur.atDocumentMark || cur.peek == some '#' then return .stop state cur
  let cs ← word flow cur.rest
  let state := if cs.isEmpty then state else
    { text := state.text ++ String.ofList (state.gap.text ++ cs), gap := .blanks [] }
  let cur := cur.skip cs.length
  if cur.atEnd || !cur.blankAt then return .stop state cur
  let (gap, cur) ← Gap.read (some indent) (.blanks []) cur
  if !flow && cur.column < indent then return .stop { state with gap } cur
  return .again { state with gap } cur

/-- Reads a plain scalar.  It ends at a less indented line, at a comment or at a document mark.  The
result also tells whether a line break followed it. -/
def read (flow : Bool) (indent : Nat) (cur : Cursor) :
    Except Fault (String × Bool × Cursor) := do
  let (state, cur) ← rounds (step flow indent) {} cur
  return (state.text, state.gap.isBroken, cur)

end Plain

/-! ## Quoted scalars -/

namespace Quoted

/-- The escapes of one letter. -/
def letterEscape? : Char → Option Char
  | '0' => some '\x00'
  | 'a' => some '\x07'
  | 'b' => some '\x08'
  | 't' => some '\t'
  | '\t' => some '\t'
  | 'n' => some '\n'
  | 'v' => some '\x0b'
  | 'f' => some '\x0c'
  | 'r' => some '\r'
  | 'e' => some '\x1b'
  | ' ' => some ' '
  | '"' => some '"'
  | '/' => some '/'
  | '\\' => some '\\'
  | 'N' => some '\u0085'
  | '_' => some '\u00a0'
  | 'L' => some '\u2028'
  | 'P' => some '\u2029'
  | _ => none

/-- The number of hexadecimal digits behind a letter that starts a code escape. -/
def codeLength? : Char → Option Nat
  | 'x' => some 2
  | 'u' => some 4
  | 'U' => some 8
  | _ => none

/-- The character of a code escape, whose digits come first. -/
def codeEscape? (width : Nat) (cs : List Char) : Option Char :=
  let digits := cs.take width
  if digits.length < width then none
  else (Text.readDigits? Text.hexValue? 16 digits).bind fun n =>
    if n.isValidChar then some (Char.ofNat n) else none

/-- The character of an escape and the cursor behind it, at the backslash. -/
def escape? (cur : Cursor) : Option (Char × Cursor) := do
  let letter ← cur.peek 1
  match codeLength? letter with
  | some width => return (← codeEscape? width (cur.rest.drop 2), cur.skip (2 + width))
  | none => return (← letterEscape? letter, cur.skip 2)

/-- Reads one character of a single-quoted run; a quote is written twice. -/
def singleStep (text : String) (cur : Cursor) : Except Fault (Round String) :=
  match cur.peek with
  | some '\'' =>
    if cur.peek 1 == some '\'' then .ok (.again (text.push '\'') (cur.skip 2))
    else .ok (.stop text cur)
  | some c =>
    if isSpaceOrTab c || isBreak c then .ok (.stop text cur)
    else .ok (.again (text.push c) cur.skip)
  | none => .ok (.stop text cur)

/-- Reads one character of a double-quoted run.  The state also tells whether the run ended at an
escaped line break. -/
def doubleStep (state : String × Bool) (cur : Cursor) : Except Fault (Round (String × Bool)) :=
  match cur.peek with
  | some '"' => .ok (.stop state cur)
  | some '\\' =>
    match cur.skip.takeBreak? with
    | some (_, next) => .ok (.stop (state.1, true) next)
    | none =>
      match escape? cur with
      | some (c, next) => .ok (.again (state.1.push c, false) next)
      | none => .error .escape
  | some c =>
    if isSpaceOrTab c || isBreak c then .ok (.stop state cur)
    else .ok (.again (state.1.push c, false) cur.skip)
  | none => .ok (.stop state cur)

/-- Reads characters up to a blank, a break or the closing quote. -/
def run (quote : Char) (text : String) (cur : Cursor) :
    Except Fault ((String × Bool) × Cursor) :=
  if quote == '"' then rounds doubleStep (text, false) cur
  else do
    let (text, cur) ← rounds singleStep text cur
    return ((text, false), cur)

/-- Reads a run and the gap behind it. -/
def step (quote : Char) (text : String) (cur : Cursor) : Except Fault (Round String) := do
  if cur.atDocumentMark || cur.atEnd then throw .unclosedQuote
  let ((text, escapedBreak), cur) ← run quote text cur
  if cur.peek == some quote then return .stop text cur
  let start : Gap := if escapedBreak then .breaks none [] else .blanks []
  let (gap, cur) ← Gap.read none start cur
  return .again (text ++ String.ofList gap.text) cur

/-- Reads a quoted scalar, from its opening quote to behind its closing one. -/
def read (quote : Char) (cur : Cursor) : Except Fault (String × Cursor) := do
  let (text, cur) ← rounds (step quote) "" cur.skip
  if cur.peek == some quote then return (text, cur.skip) else throw .unclosedQuote

end Quoted

end TemplateConditions.Yaml
