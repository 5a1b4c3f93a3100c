import TemplateConditions.Json.Basic
import TemplateConditions.Number.Layout

/-!
# JSON text

A compact form without blanks and a form indented by two blanks a level.  Strings escape the quote,
the backslash and the control characters below U+0020, and nothing else.
-/

namespace TemplateConditions.Json

/-- Floats are positional from 0.00001 up to below 10^16, and carry the sign of their exponent
otherwise. -/
def numberLayout : NumberLayout where
  plainFrom := -5
  plainThrough := 15
  plusSign := true

end Json

/-- The text of a number. -/
def JsonNumber.text : JsonNumber → String
  | .int value => Text.signedDecimal value
  | .float value => Json.numberLayout.write value

namespace Json

/-- The written form of one character inside a string. -/
def escape (c : Char) : List Char :=
  match c with
  | '"' => ['\\', '"']
  | '\\' => ['\\', '\\']
  | '\n' => ['\\', 'n']
  | '\r' => ['\\', 'r']
  | '\t' => ['\\', 't']
  | '\x08' => ['\\', 'b']
  | '\x0c' => ['\\', 'f']
  | c => if c.toNat < 0x20 then '\\' :: 'u' :: Text.hexDigits 4 c.toNat else [c]

/-- The characters of a string literal. -/
def quoteChars (cs : List Char) : List Char :=
  '"' :: cs.flatMap escape ++ ['"']

/-- A string literal. -/
def quote (s : String) : String :=
  String.ofList (quoteChars s.toList)

mutual

/-- The value without blanks. -/
def compact : Json → String
  | .null => "null"
  | .bool value => if value then "true" else "false"
  | .number value => value.text
  | .string value => quote value
  | .array items => "[" ++ compactItems items ++ "]"
  | .object members => "\x7b" ++ compactMembers members ++ "\x7d"

def compactItems : List Json → String
  | [] => ""
  | [item] => item.compact
  | item :: rest => item.compact ++ "," ++ compactItems rest

def compactMembers : List (String × Json) → String
  | [] => ""
  | [(key, value)] => quote key ++ ":" ++ value.compact
  | (key, value) :: rest => quote key ++ ":" ++ value.compact ++ "," ++ compactMembers rest

end

/-- A line break and the blanks of a level. -/
def lineBreak (level : Nat) : String :=
  String.ofList ('\n' :: List.replicate (2 * level) ' ')

mutual

/-- The value on indented lines; an empty array or object stays on its line. -/
def indented (level : Nat) : Json → String
  | .null => "null"
  | .bool value => if value then "true" else "false"
  | .number value => value.text
  | .string value => quote value
  | .array [] => "[]"
  | .array items => "[" ++ indentedItems (level + 1) items ++ lineBreak level ++ "]"
  | .object [] => "\x7b\x7d"
  | .object members =>
    "\x7b" ++ indentedMembers (level + 1) members ++ lineBreak level ++ "\x7d"

def indentedItems (level : Nat) : List Json → String
  | [] => ""
  | [item] => lineBreak level ++ item.indented level
  | item :: rest => lineBreak level ++ item.indented level ++ "," ++ indentedItems level rest

def indentedMembers (level : Nat) : List (String × Json) → String
  | [] => ""
  | [(key, value)] => lineBreak level ++ quote key ++ ": " ++ value.indented level
  | (key, value) :: rest =>
    lineBreak level ++ quote key ++ ": " ++ value.indented level ++ ","
      ++ indentedMembers level rest

end

/-- The value on lines indented by two blanks a level. -/
def pretty (value : Json) : String :=
  value.indented 0

end TemplateConditions.Json
