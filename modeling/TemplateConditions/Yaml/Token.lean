import TemplateConditions.Yaml.BlockText
import TemplateConditions.Yaml.FlowText
import TemplateConditions.Yaml.Tag

/-!
# Tokens

The words of a YAML text.  Indentation becomes tokens that start and end block collections, as
brackets do for flow collections.  A key that is not announced by a question mark is known as a
key only at its colon, so a lexer remembers where one may have started and puts the tokens for it
there later.
-/

namespace TemplateConditions.Yaml

inductive Token where
  | version (major minor : Nat)
  | handle (name : String) (lead : List UInt8)
  | documentStart
  | documentEnd
  | blockSequenceStart
  | blockMappingStart
  | blockEnd
  | flowSequenceStart
  | flowSequenceEnd
  | flowMappingStart
  | flowMappingEnd
  | blockEntry
  | flowEntry
  | key
  | value
  | alias (name : String)
  | anchor (name : String)
  | tag (written : Tag.Written)
  | scalar (plain : Bool) (text : String)
  deriving DecidableEq

/-- A place where a key may have started.  It is required where the text would be wrong without a
colon. -/
structure PossibleKey where
  required : Bool
  tokenNumber : Nat
  index : Nat
  line : Nat
  column : Nat

/-- What is read so far.  `indent` is the column of the innermost block collection, and -1 outside;
`keys` holds a place for a possible key for the document and for each open flow collection,
innermost first. -/
structure Lexer where
  cur : Cursor
  tokens : Array Token := #[]
  indent : Int := -1
  outer : List Int := []
  keys : List (Option PossibleKey) := [none]
  keyAllowed : Bool := true

namespace Lexer

/-- Inside a flow collection? -/
def flow (lexer : Lexer) : Bool :=
  1 < lexer.keys.length

def emit (lexer : Lexer) (token : Token) : Lexer :=
  { lexer with tokens := lexer.tokens.push token }

/-- Passes `n` characters as a token. -/
def accept (lexer : Lexer) (token : Token) (n : Nat) : Lexer :=
  { lexer.emit token with cur := lexer.cur.skip n }

/-! ## Possible keys -/

/-- Forgets the possible key of the innermost collection; a required one is missed. -/
def dropKey (lexer : Lexer) : Except Fault Lexer :=
  match lexer.keys with
  | some key :: rest =>
    if key.required then .error .missingColon else .ok { lexer with keys := none :: rest }
  | _ => .ok lexer

/-- Remembers that a key may start here. -/
def markKey (lexer : Lexer) : Except Fault Lexer :=
  if !lexer.keyAllowed then .ok lexer
  else do
    let lexer ← lexer.dropKey
    let key : PossibleKey := {
      required := !lexer.flow && lexer.indent == lexer.cur.column
      tokenNumber := lexer.tokens.size
      index := lexer.cur.index
      line := lexer.cur.line
      column := lexer.cur.column }
    return { lexer with keys := some key :: lexer.keys.drop 1 }

/-- Is a key that started there too far away?  It has to fit on its line and in 1024 bytes of
UTF-8. -/
def PossibleKey.isStale (key : PossibleKey) (cur : Cursor) : Bool :=
  key.line < cur.line || key.index + 1024 < cur.index

/-- Forgets the possible keys that are too far away. -/
def dropStaleKeys (lexer : Lexer) : Except Fault Lexer := do
  let stale (key : PossibleKey) : Bool := PossibleKey.isStale key lexer.cur
  if lexer.keys.any (·.any fun key => stale key && key.required) then throw .missingColon
  return { lexer with keys := lexer.keys.map (·.filter fun key => !stale key) }

/-! ## Indentation -/

/-- Puts a token before the one with the given number. -/
def insertToken (lexer : Lexer) (number : Nat) (token : Token) : Lexer :=
  { lexer with tokens := lexer.tokens.insertIdxIfInBounds number token }

/-- Starts a block collection before the token `number` if `column` is further in. -/
def openBlock (lexer : Lexer) (column number : Nat) (token : Token) : Lexer :=
  if !lexer.flow && lexer.indent < column then
    { lexer.insertToken number token with indent := column, outer := lexer.indent :: lexer.outer }
  else lexer

/-- Ends the block collections that are further in than `column`; `outer` are the columns around
the innermost. -/
def closeFrom (column : Int) (indent : Int) (tokens : Array Token) :
    List Int → Int × List Int × Array Token
  | [] => (indent, [], tokens)
  | next :: outer =>
    if column < indent then closeFrom column next (tokens.push .blockEnd) outer
    else (indent, next :: outer, tokens)

/-- Ends the block collections that are further in than `column`. -/
def closeBlocks (lexer : Lexer) (column : Int) : Lexer :=
  if lexer.flow then lexer
  else
    let (indent, outer, tokens) := closeFrom column lexer.indent lexer.tokens lexer.outer
    { lexer with indent, outer, tokens }

/-! ## Between tokens -/

/-- Passes blanks, comments and line breaks.  Tabs are no indentation; in block collections a new
line may start a key. -/
def skipToToken (lexer : Lexer) : Except Fault Lexer := do
  let (allowed, cur) ← rounds (fun allowed cur =>
    let cur := if cur.column == 0 && cur.peek == some '\ufeff' then cur.skip else cur
    let cur := cur.skipWhile fun c => c == ' ' || (c == '\t' && (lexer.flow || !allowed))
    let cur := cur.skipComment
    match cur.takeBreak? with
    | some (_, next) => .ok (.again (allowed || !lexer.flow) next)
    | none => .ok (.stop allowed cur)) lexer.keyAllowed lexer.cur
  return { lexer with cur, keyAllowed := allowed }

/-! ## Directives -/

/-- A number of at most nine digits. -/
def versionNumber? (cur : Cursor) : Option (Nat × Cursor) :=
  let (digits, next) := cur.span Text.isDigit
  if 9 < digits.length then none
  else (Text.readDigits? Text.decimalValue? 10 digits).map fun n => (n, next)

def version? (cur : Cursor) : Option (Token × Cursor) := do
  let (major, cur) ← versionNumber? (cur.skipWhile isSpaceOrTab)
  if cur.peek != some '.' then none
  let (minor, cur) ← versionNumber? cur.skip
  return (.version major minor, cur)

def tagHandle (cur : Cursor) : Except Fault (Token × Cursor) := do
  let cur := cur.skipWhile isSpaceOrTab
  if cur.peek != some '!' then throw .directive
  let (name, cur) := Tag.readHandle cur
  if name != "!" && !(1 < name.length && name.endsWith "!") then throw .directive
  if !cur.peek.any isSpaceOrTab then throw .directive
  let (lead, cur) ← Tag.readSuffix true [] (cur.skipWhile isSpaceOrTab)
  if lead.isEmpty || !cur.blankAt then throw .directive
  return (.handle name (Tag.cut lead), cur)

/-- Reads a directive at its percent sign. -/
def directive (cur : Cursor) : Except Fault (Token × Cursor) := do
  let (name, cur) := cur.skip.span isNameChar
  if !cur.blankAt then throw .directive
  let (token, cur) ← match String.ofList name with
    | "YAML" => match version? cur with
      | some result => pure result
      | none => throw .directive
    | "TAG" => tagHandle cur
    | _ => throw .directive
  match cur.endLine? with
  | some cur => return (token, cur)
  | none => throw .directive

/-- Leaves all block collections, as a directive or a document mark does. -/
def leaveAll (lexer : Lexer) : Except Fault Lexer := do
  return { ← (lexer.closeBlocks (-1)).dropKey with keyAllowed := false }

/-! ## One token -/

/-- A bracket or brace that opens; it may start a key. -/
def openFlow (lexer : Lexer) (token : Token) : Except Fault Lexer := do
  let lexer ← lexer.markKey
  return { lexer.accept token 1 with keys := none :: lexer.keys, keyAllowed := true }

/-- A bracket or brace that closes. -/
def closeFlow (lexer : Lexer) (token : Token) : Except Fault Lexer := do
  let lexer ← lexer.dropKey
  let keys := if lexer.flow then lexer.keys.drop 1 else lexer.keys
  return { lexer.accept token 1 with keys, keyAllowed := false }

def flowEntry (lexer : Lexer) : Except Fault Lexer := do
  return { (← lexer.dropKey).accept .flowEntry 1 with keyAllowed := true }

/-- A hyphen in front of an item. -/
def blockEntry (lexer : Lexer) : Except Fault Lexer := do
  if !lexer.flow && !lexer.keyAllowed then throw .entryPlace
  let lexer := lexer.openBlock lexer.cur.column lexer.tokens.size .blockSequenceStart
  return { (← lexer.dropKey).accept .blockEntry 1 with keyAllowed := true }

/-- A question mark in front of a key. -/
def explicitKey (lexer : Lexer) : Except Fault Lexer := do
  if !lexer.flow && !lexer.keyAllowed then throw .keyPlace
  let lexer := lexer.openBlock lexer.cur.column lexer.tokens.size .blockMappingStart
  return { (← lexer.dropKey).accept .key 1 with keyAllowed := !lexer.flow }

/-- A colon.  If a key may have started before it, it has: its tokens are put there. -/
def value (lexer : Lexer) : Except Fault Lexer :=
  match lexer.keys with
  | some key :: rest =>
    let lexer := (lexer.insertToken key.tokenNumber .key).openBlock key.column key.tokenNumber
      .blockMappingStart
    .ok { lexer.accept .value 1 with keys := none :: rest, keyAllowed := false }
  | _ =>
    if !lexer.flow && !lexer.keyAllowed then .error .keyPlace
    else
      let lexer := lexer.openBlock lexer.cur.column lexer.tokens.size .blockMappingStart
      .ok { lexer.accept .value 1 with keyAllowed := !lexer.flow }

/-- May the name of an anchor or alias end here? -/
def endsName (cur : Cursor) : Bool :=
  cur.blankAt || cur.peek.any fun c =>
    c == '?' || c == ':' || c == ',' || c == ']' || c == '\x7d' || c == '%' || c == '@'
      || c == '\x60'

/-- An anchor or alias at its sign. -/
def named (lexer : Lexer) (token : String → Token) : Except Fault Lexer := do
  let lexer ← lexer.markKey
  let (name, cur) := lexer.cur.skip.span isNameChar
  if name.isEmpty || !endsName cur then throw .anchorName
  return { lexer.emit (token (String.ofList name)) with cur, keyAllowed := false }

def tag (lexer : Lexer) : Except Fault Lexer := do
  let lexer ← lexer.markKey
  let (written, cur) ← Tag.read lexer.flow lexer.cur
  return { lexer.emit (.tag written) with cur, keyAllowed := false }

def blockScalar (lexer : Lexer) (literal : Bool) : Except Fault Lexer := do
  let lexer ← lexer.dropKey
  let (text, cur) ← Block.read literal lexer.indent lexer.cur
  return { lexer.emit (.scalar false text) with cur, keyAllowed := true }

def quotedScalar (lexer : Lexer) (quote : Char) : Except Fault Lexer := do
  let lexer ← lexer.markKey
  let (text, cur) ← Quoted.read quote lexer.cur
  return { lexer.emit (.scalar false text) with cur, keyAllowed := false }

def plainScalar (lexer : Lexer) : Except Fault Lexer := do
  let lexer ← lexer.markKey
  let (text, broken, cur) ← Plain.read lexer.flow (lexer.indent + 1).toNat lexer.cur
  return { lexer.emit (.scalar true text) with cur, keyAllowed := broken }

/-- The characters that cannot start a plain scalar, or only under a condition. -/
def isIndicator (c : Char) : Bool :=
  "-?:,[]\x7b\x7d#&*!|>'\"%@\x60".toList.contains c

/-- May a plain scalar start here?  A hyphen may if no blank follows it, and outside flow
collections a question mark and a colon may, too. -/
def startsPlain (lexer : Lexer) (c : Char) : Bool :=
  if c == '-' then !(lexer.cur.peek 1).any isSpaceOrTab
  else if c == '?' || c == ':' then !lexer.flow && !lexer.cur.blankAt 1
  else !isIndicator c && !isSpaceOrTab c && !isBreak c

/-- Reads the token that starts with the character `c`. -/
def token (lexer : Lexer) (c : Char) : Except Fault Lexer := do
  let cur := lexer.cur
  if cur.column == 0 && c == '%' then
    let lexer ← lexer.leaveAll
    let (token, cur) ← directive cur
    return { lexer.emit token with cur }
  if cur.atMark '-' then return (← lexer.leaveAll).accept .documentStart 3
  if cur.atMark '.' then return (← lexer.leaveAll).accept .documentEnd 3
  let blankNext := cur.blankAt 1
  match c with
  | '[' => lexer.openFlow .flowSequenceStart
  | '\x7b' => lexer.openFlow .flowMappingStart
  | ']' => lexer.closeFlow .flowSequenceEnd
  | '\x7d' => lexer.closeFlow .flowMappingEnd
  | ',' => lexer.flowEntry
  | '*' => lexer.named .alias
  | '&' => lexer.named .anchor
  | '!' => lexer.tag
  | '\'' => lexer.quotedScalar '\''
  | '"' => lexer.quotedScalar '"'
  | _ =>
    if c == '-' && blankNext then lexer.blockEntry
    else if c == '?' && (lexer.flow || blankNext) then lexer.explicitKey
    else if c == ':' && (lexer.flow || blankNext) then lexer.value
    else if c == '|' && !lexer.flow then lexer.blockScalar true
    else if c == '>' && !lexer.flow then lexer.blockScalar false
    else if lexer.startsPlain c then lexer.plainScalar
    else throw .token

/-- Ends the text: all block collections end, and no key may be missed. -/
def finish (lexer : Lexer) : Except Fault (List Token) := do
  return (← (lexer.closeBlocks (-1)).dropKey).tokens.toList

/-- Reads tokens to the end of the text.  Every token takes a character. -/
def run (lexer : Lexer) : Except Fault (List Token) :=
  match lexer.skipToToken >>= dropStaleKeys with
  | .error fault => .error fault
  | .ok ready =>
    let ready := ready.closeBlocks ready.cur.column
    match ready.cur.peek with
    | none => ready.finish
    | some c =>
      match ready.token c with
      | .error fault => .error fault
      | .ok next =>
        if next.cur.left < lexer.cur.left then next.run else .error .token
termination_by lexer.cur.left

end Lexer

/-- The tokens of a text. -/
def Token.ofText (text : String) : Except Fault (List Token) :=
  if text.toList.all isAllowed then Lexer.run { cur := .ofText text } else .error .character

end TemplateConditions.Yaml
