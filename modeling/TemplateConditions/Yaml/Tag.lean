import TemplateConditions.Text.Digits
import TemplateConditions.Yaml.Cursor

/-!
# Tags

A tag is written as a handle and a suffix, or verbatim between angle brackets.  Escaped octets make
a tag a byte string, which need not be valid UTF-8; an octet zero ends it.
-/

namespace TemplateConditions.Yaml

/-- The bytes of a tag. -/
structure Tag where
  bytes : List UInt8
  deriving DecidableEq

namespace Tag

def ofText (text : String) : Tag :=
  ⟨text.toUTF8.toList⟩

/-- The tag as text, if it is valid UTF-8. -/
def text? (tag : Tag) : Option String :=
  String.fromUTF8? ⟨tag.bytes.toArray⟩

/-- Does the tag start with an exclamation mark, as tags that are not standard do? -/
def isPrivate (tag : Tag) : Bool :=
  tag.bytes.head? == some 0x21

/-- The name of a private tag: its text without at most two marks in front.  One mark stays where
nothing else is there. -/
def privateName? (tag : Tag) : Option String :=
  match tag.bytes with
  | [0x21] => some "!"
  | [0x21, 0x21] => some "!"
  | 0x21 :: 0x21 :: rest => text? ⟨rest⟩
  | 0x21 :: rest => text? ⟨rest⟩
  | _ => none

/-- The bytes up to an octet zero. -/
def cut (bytes : List UInt8) : List UInt8 :=
  bytes.takeWhile (· ≠ 0)

/-- A tag as it is written: the handle in front of its suffix.  An empty handle stands for no
handle. -/
structure Written where
  handle : String
  suffix : List UInt8
  deriving DecidableEq

/-- The handles of a document with what they stand for. -/
abbrev Handles := List (String × List UInt8)

/-- The handles that every document has. -/
def standardHandles : Handles :=
  [("!", (ofText "!").bytes), ("!!", (ofText "tag:yaml.org,2002:").bytes)]

/-- The tag that is meant, if its handle is known. -/
def Written.resolve? (handles : Handles) (written : Written) : Option Tag :=
  if written.handle = "" then some ⟨written.suffix⟩
  else (handles.lookup written.handle).map fun lead => ⟨lead ++ written.suffix⟩

/-! ## Reading -/

/-- The characters that a tag may hold; flow indicators only in a verbatim tag or a directive. -/
def isTagChar (withIndicators : Bool) (c : Char) : Bool :=
  isNameChar c || ";/?:@&=+$.%!~*'()".toList.contains c
    || (withIndicators && (c == ',' || c == '[' || c == ']'))

/-- An escaped octet: a percent sign and two hexadecimal digits. -/
def octet? (cur : Cursor) : Option (Nat × Cursor) :=
  match cur.rest with
  | '%' :: high :: low :: _ =>
    (Text.readDigits? Text.hexValue? 16 [high, low]).map fun n => (n, cur.skip 3)
  | _ => none

/-- The number of octets that a leading octet announces. -/
def octetCount? (lead : Nat) : Option Nat :=
  if lead < 0x80 then some 1
  else if lead < 0xc0 then none
  else if lead < 0xe0 then some 2
  else if lead < 0xf0 then some 3
  else if lead < 0xf8 then some 4
  else none

/-- Reads `count` continuation octets. -/
def continuation? : Nat → Cursor → Option (List UInt8 × Cursor)
  | 0, cur => some ([], cur)
  | count + 1, cur => do
    let (n, cur) ← octet? cur
    if n < 0x80 ∨ 0xc0 ≤ n then none
    let (bytes, cur) ← continuation? count cur
    return (UInt8.ofNat n :: bytes, cur)

/-- Reads the escaped octets of one character. -/
def escaped? (cur : Cursor) : Option (List UInt8 × Cursor) := do
  let (lead, cur) ← octet? cur
  let count ← octetCount? lead
  let (bytes, cur) ← continuation? (count - 1) cur
  return (UInt8.ofNat lead :: bytes, cur)

/-- Reads the characters of a tag, in front of which `bytes` stand already. -/
def readSuffix (withIndicators : Bool) (bytes : List UInt8) (cur : Cursor) :
    Except Fault (List UInt8 × Cursor) :=
  rounds (fun bytes cur =>
    match cur.peek with
    | some '%' =>
      match escaped? cur with
      | some (more, next) => .ok (.again (bytes ++ more) next)
      | none => .error .tagText
    | some c =>
      if isTagChar withIndicators c then
        .ok (.again (bytes ++ [UInt8.ofNat c.toNat]) cur.skip)
      else .ok (.stop bytes cur)
    | none => .ok (.stop bytes cur)) bytes cur

/-- Reads an exclamation mark, a name and, if there is one, a second exclamation mark. -/
def readHandle (cur : Cursor) : String × Cursor :=
  let (name, cur) := cur.skip.span isNameChar
  if cur.peek == some '!' then (String.ofList ('!' :: name ++ ['!']), cur.skip)
  else (String.ofList ('!' :: name), cur)

/-- Reads a verbatim tag at its exclamation mark. -/
def readVerbatim (cur : Cursor) : Except Fault (Written × Cursor) := do
  let (suffix, next) ← readSuffix true [] (cur.skip 2)
  if suffix.isEmpty || next.peek != some '>' then throw .tagText
  return (⟨"", cut suffix⟩, next.skip)

/-- Reads a tag that is not verbatim.  Without a second exclamation mark, what was taken for a
handle belongs to the suffix; a lone exclamation mark is a tag of its own. -/
def readShorthand (cur : Cursor) : Except Fault (Written × Cursor) := do
  let (handle, next) := readHandle cur
  if 1 < handle.length && handle.endsWith "!" then
    let (suffix, next) ← readSuffix false [] next
    if suffix.isEmpty then throw .tagText
    return (⟨handle, cut suffix⟩, next)
  else
    let (suffix, next) ← readSuffix false (ofText (handle.drop 1).copy).bytes next
    let suffix := cut suffix
    if suffix.isEmpty then return (⟨"", (ofText "!").bytes⟩, next)
    return (⟨"!", suffix⟩, next)

/-- Reads a tag at its exclamation mark.  A blank has to follow it, or in a flow collection a
comma. -/
def read (flow : Bool) (cur : Cursor) : Except Fault (Written × Cursor) := do
  let (written, cur) ←
    if cur.peek 1 == some '<' then readVerbatim cur else readShorthand cur
  if cur.blankAt || (flow && cur.peek == some ',') then return (written, cur)
  throw .tagText

end Tag

end TemplateConditions.Yaml
