/-!
# Positions in a YAML text

A cursor is the text that is left, with the index, line and column where it starts.  The index
counts bytes of the text in UTF-8, and the column counts characters.  Scanning
functions take a cursor and return the one behind what they have read.  Repetition goes through
`rounds`, which ends when a round takes no character.
-/

namespace TemplateConditions.Yaml

/-- Why a text is no YAML document. -/
inductive Fault where
  | character
  | directive
  | anchorName
  | tagText
  | tagHandle
  | blockHeader
  | tab
  | escape
  | unclosedQuote
  | unexpectedColon
  | entryPlace
  | keyPlace
  | missingColon
  | token
  | grammar
  | manyDocuments
  | unknownAnchor
  | nesting
  | repetition
  | duplicateKey
  | integerRange
  | scalarType
  deriving DecidableEq

/-- The characters that a document may hold. -/
def isAllowed (c : Char) : Bool :=
  let n := c.toNat
  n == 0x09 || n == 0x0a || n == 0x0d || (0x20 ≤ n && n ≤ 0x7e) || n == 0x85
    || (0xa0 ≤ n && n ≤ 0xd7ff) || (0xe000 ≤ n && n ≤ 0xfffd) || 0x10000 ≤ n

def isSpaceOrTab (c : Char) : Bool :=
  c == ' ' || c == '\t'

def isBreak (c : Char) : Bool :=
  c == '\n' || c == '\r' || c == '\u0085' || c == '\u2028' || c == '\u2029'

/-- A letter, a digit, a hyphen or an underscore, in ASCII. -/
def isNameChar (c : Char) : Bool :=
  c.isAlphanum || c == '-' || c == '_'

/-- The number of bytes of characters in UTF-8. -/
def utf8Length (cs : List Char) : Nat :=
  cs.foldl (fun n c => n + c.utf8Size) 0

structure Cursor where
  rest : List Char
  /-- The number of bytes of the whole text. -/
  size : Nat
  /-- The number of bytes in front of the rest. -/
  index : Nat := 0
  line : Nat := 0
  column : Nat := 0

namespace Cursor

/-- The start of a text. -/
def ofText (text : String) : Cursor :=
  { rest := text.toList, size := text.utf8ByteSize }

/-- The number of bytes that are left. -/
def left (cur : Cursor) : Nat :=
  cur.size - cur.index

/-- The character at a distance; none behind the end. -/
def peek (cur : Cursor) (distance : Nat := 0) : Option Char :=
  cur.rest[distance]?

def atEnd (cur : Cursor) : Bool :=
  cur.rest.isEmpty

/-- Passes `n` characters of the line. -/
def skip (cur : Cursor) (n : Nat := 1) : Cursor :=
  { cur with
    rest := cur.rest.drop n
    index := cur.index + utf8Length (cur.rest.take n)
    column := cur.column + n }

/-- The characters in front that satisfy `p`, and the cursor behind them.  No break may satisfy
`p`. -/
def span (cur : Cursor) (p : Char → Bool) : List Char × Cursor :=
  let taken := cur.rest.takeWhile p
  (taken, cur.skip taken.length)

/-- Passes the characters in front that satisfy `p`. -/
def skipWhile (cur : Cursor) (p : Char → Bool) : Cursor :=
  (cur.span p).2

/-- Passes a line break.  It counts as a line feed, but for the Unicode line and paragraph
separators, which stand for themselves. -/
def takeBreak? (cur : Cursor) : Option (Char × Cursor) :=
  match cur.rest with
  | '\r' :: '\n' :: rest => some ('\n', ⟨rest, cur.size, cur.index + 2, cur.line + 1, 0⟩)
  | c :: rest =>
    if !isBreak c then none
    else
      let text := if c == '\u2028' || c == '\u2029' then c else '\n'
      some (text, ⟨rest, cur.size, cur.index + c.utf8Size, cur.line + 1, 0⟩)
  | [] => none

/-- Is there a break, or nothing more? -/
def atBreakOrEnd (cur : Cursor) : Bool :=
  match cur.peek with
  | some c => isBreak c
  | none => true

/-- Is the character at a distance a space, a tab or a break, or behind the end? -/
def blankAt (cur : Cursor) (distance : Nat := 0) : Bool :=
  match cur.peek distance with
  | some c => isSpaceOrTab c || isBreak c
  | none => true

/-- Does the text go on with the same character three times and a blank, at the start of a line? -/
def atMark (cur : Cursor) (c : Char) : Bool :=
  cur.column == 0 && cur.rest.take 3 == [c, c, c] && cur.blankAt 3

/-- Is there a line that starts or ends a document? -/
def atDocumentMark (cur : Cursor) : Bool :=
  cur.atMark '-' || cur.atMark '.'

/-- Passes a comment up to its line break. -/
def skipComment (cur : Cursor) : Cursor :=
  if cur.peek == some '#' then cur.skipWhile (!isBreak ·) else cur

/-- Passes blanks and a comment at the end of a line, which has to end there. -/
def endLine? (cur : Cursor) : Option Cursor :=
  let cur := (cur.skipWhile isSpaceOrTab).skipComment
  if !cur.atBreakOrEnd then none
  else
    match cur.takeBreak? with
    | some (_, next) => some next
    | none => some cur

end Cursor

/-- The outcome of one round: the last one, or one more to go. -/
inductive Round (σ : Type) where
  | stop (state : σ) (cur : Cursor)
  | again (state : σ) (cur : Cursor)

/-- Runs `step` until it stops, fails or takes no character. -/
def rounds {σ : Type} (step : σ → Cursor → Except Fault (Round σ)) (state : σ) (cur : Cursor) :
    Except Fault (σ × Cursor) :=
  match step state cur with
  | .error fault => .error fault
  | .ok (.stop state next) => .ok (state, next)
  | .ok (.again state next) =>
    if next.left < cur.left then rounds step state next else .ok (state, next)
termination_by cur.left

/-- White space inside a scalar: blanks on one line, or line breaks.  A first break that is escaped
leaves no text. -/
inductive Gap where
  | blanks (text : List Char)
  | breaks (first : Option Char) (others : List Char)

namespace Gap

/-- What a gap contributes: blanks stay, one line feed becomes a space, and of several the first is
dropped. -/
def text : Gap → List Char
  | .blanks text => text
  | .breaks (some '\n') [] => [' ']
  | .breaks (some '\n') others => others
  | .breaks first others => first.toList ++ others

def isBroken : Gap → Bool
  | .blanks _ => false
  | .breaks _ _ => true

/-- Reads on in a gap.  Where an indentation is given, a tab may not stand in it. -/
def read (indent : Option Nat) (gap : Gap) (cur : Cursor) : Except Fault (Gap × Cursor) :=
  rounds (fun gap cur =>
    match cur.peek with
    | none => .ok (.stop gap cur)
    | some c =>
      if isSpaceOrTab c then
        match gap with
        | .blanks text => .ok (.again (.blanks (text ++ [c])) cur.skip)
        | .breaks _ _ =>
          if c == '\t' && indent.any (cur.column < ·) then .error .tab
          else .ok (.again gap cur.skip)
      else
        match cur.takeBreak?, gap with
        | some (b, next), .blanks _ => .ok (.again (.breaks (some b) []) next)
        | some (b, next), .breaks first others => .ok (.again (.breaks first (others ++ [b])) next)
        | none, _ => .ok (.stop gap cur)) gap cur

end Gap

end TemplateConditions.Yaml
