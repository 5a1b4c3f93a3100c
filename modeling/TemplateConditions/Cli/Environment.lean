import TemplateConditions.Text.Alphanumeric
import TemplateConditions.Text.Blank
import TemplateConditions.Text.Split

/-!
# Environment files

Variables by name, and the lines `KEY=VALUE` of a file that adds to them.  A variable that is set
already keeps its value.  The first line that is not well formed ends the file.  No value can hold
the character NUL.
-/

namespace TemplateConditions.Cli

/-- The variables that are set. -/
abbrev Environment := List (String × String)

namespace Environment

/-- Sets a variable unless it is set; none if it cannot hold the value. -/
def setDefault? (env : Environment) (name value : String) : Option Environment :=
  if (env.lookup name).isSome then some env
  else if value.contains '\x00' then none
  else some (env ++ [(name, value)])

/-- The value of a variable; the empty text if it is not set. -/
def valueOf (env : Environment) (name : List Char) : List Char :=
  ((env.lookup (String.ofList name)).getD "").toList

/-! ## Values -/

/-- Where the reading of a value stands: in plain text, in single quotes, behind a backslash, in the
name of a variable behind a dollar sign, in such a name between braces, or behind the value. -/
inductive Mode where
  | text
  | single
  | escape
  | name (chars : List Char)
  | braced (chars : List Char)
  | behind

/-- The character that an escape stands for. -/
def escaped? : Char → Option Char
  | '\\' => some '\\'
  | '\'' => some '\''
  | '"' => some '"'
  | '$' => some '$'
  | ' ' => some ' '
  | 'n' => some '\n'
  | _ => none

/-- Reads a value; `double` tells whether the text at hand is in double quotes.  Quotes that are not
closed are refused.  Outside braces the name of a variable is made of letters and numbers of any
script, and the character that ends it stands for itself. -/
def readValue? (env : Environment) (double : Bool) (mode : Mode) : List Char → Option (List Char)
  | [] =>
    match mode with
    | .single => none
    | .braced _ => none
    | .name name => if double then none else some (env.valueOf name)
    | _ => if double then none else some []
  | c :: rest =>
    match mode with
    | .behind =>
      if c = ' ' ∨ c = '\t' then readValue? env double .behind rest
      else if c = '#' then some []
      else none
    | .escape => do
      let c ← escaped? c
      return c :: (← readValue? env double .text rest)
    | .single =>
      if c = '\'' then readValue? env double .text rest
      else (readValue? env double .single rest).map (c :: ·)
    | .name name =>
      if Text.isAlphanumeric c then readValue? env double (.name (name ++ [c])) rest
      else if c = '\x7b' ∧ name = [] then readValue? env double (.braced []) rest
      else if c = '$' then (readValue? env double (.name []) rest).map (env.valueOf name ++ ·)
      else (readValue? env double .text rest).map (env.valueOf name ++ c :: ·)
    | .braced name =>
      if c = '\x7d' then (readValue? env double .text rest).map (env.valueOf name ++ ·)
      else readValue? env double (.braced (name ++ [c])) rest
    | .text =>
      if c = '$' then readValue? env double (.name []) rest
      else if c = '\\' then readValue? env double .escape rest
      else if c = '"' then readValue? env (!double) .text rest
      else if double then (readValue? env double .text rest).map (c :: ·)
      else if c = '\'' then readValue? env double .single rest
      else if c = ' ' ∨ c = '\t' then readValue? env double .behind rest
      else (readValue? env double .text rest).map (c :: ·)

/-! ## Lines -/

/-- A name in ASCII at the front of a line, and the rest without the blanks behind it. -/
def readName? (cs : List Char) : Option (String × List Char) :=
  let name := cs.takeWhile fun c => c.isAlphanum || c == '_' || c == '.'
  match name with
  | [] => none
  | c :: _ =>
    if c.isAlpha || c == '_' then
      some (String.ofList name, Text.trimLeft (cs.drop name.length))
    else none

/-- A name and what stands behind its equals sign; the word `export` may stand in front. -/
def readTarget? (cs : List Char) : Option (String × List Char) := do
  match ← readName? cs with
  | (name, '=' :: rest) => some (name, rest)
  | ("export", rest) =>
    match ← readName? rest with
    | (name, '=' :: rest) => some (name, rest)
    | _ => none
  | _ => none

/-- A line without the blanks around it. -/
def trimLine (line : String) : List Char :=
  Text.trimLeft (Text.trimRight line.toList)

/-- The value behind an equals sign, which is empty if a comment or nothing stands there. -/
def readBehind? (env : Environment) (cs : List Char) : Option (List Char) :=
  match Text.trimLeft cs with
  | [] => some []
  | '#' :: _ => some []
  | cs => readValue? env false .text cs

/-- Reads a line, which is blank, a comment or a setting; none if it is not well formed. -/
def readLine? (env : Environment) (line : String) : Option (Option (String × String)) :=
  match trimLine line with
  | [] => some none
  | '#' :: _ => some none
  | cs => do
    let (name, rest) ← readTarget? cs
    let value ← env.readBehind? rest
    return some (name, String.ofList value)

/-- Applies lines up to the first that is not well formed; none among them stands for a line that is
not text.  None in all if a variable cannot hold its value. -/
def applyLines? (env : Environment) : List (Option String) → Option Environment
  | some line :: rest =>
    match env.readLine? line with
    | none => some env
    | some none => applyLines? env rest
    | some (some (name, value)) => do
      let env ← env.setDefault? name value
      applyLines? env rest
  | _ => some env

/-- The lines of a file; none stands for a line that is not text. -/
def linesOf (content : ByteArray) : List (Option String) :=
  (content.toList.splitOnP (· == 0x0a)).map fun bytes => String.fromUTF8? ⟨bytes.toArray⟩

/-- Adds the settings of a file; none if a variable cannot hold its value. -/
def applyFile? (env : Environment) (content : ByteArray) : Option Environment :=
  env.applyLines? (linesOf content)

/-! ## Names -/

/-- The name at the front of a text, in braces or without. -/
def nameAt : List Char → List Char
  | '\x7b' :: rest => rest.takeWhile (· ≠ '\x7d')
  | cs => cs.takeWhile Text.isAlphanumeric

/-- The names behind the dollar signs of a text. -/
def namesIn : List Char → List (List Char)
  | [] => []
  | c :: rest => if c = '$' then nameAt rest :: namesIn rest else namesIn rest

/-- The variable that a line sets, and those that its value may ask for. -/
def namesOfLine (line : String) : List String :=
  let cs := trimLine line
  (readTarget? cs).toList.map Prod.fst ++ (namesIn cs).map String.ofList

/-- The variables that the lines of a file set or may ask for. -/
def namesOfFile (content : ByteArray) : List String :=
  (linesOf content).flatMap fun line => line.toList.flatMap namesOfLine

end Environment

end TemplateConditions.Cli
