import TemplateConditions.Json.Number

/-!
# Reading JSON

The strict grammar: blanks are space, tab, carriage return and line feed; strings hold no raw
control characters and no unpaired surrogates; arrays and objects nest at most 127 deep.  Of
members with equal keys the last one counts.
-/

namespace TemplateConditions.Json

/-- The blanks that may stand between tokens. -/
def isGap (c : Char) : Bool :=
  c == ' ' || c == '\t' || c == '\n' || c == '\r'

def skipGaps (cs : List Char) : List Char :=
  cs.dropWhile isGap

/-- Four hexadecimal digits. -/
def readUnit? : List Char → Option (Nat × List Char)
  | a :: b :: c :: d :: rest =>
    (Text.readDigits? Text.hexValue? 16 [a, b, c, d]).map fun n => (n, rest)
  | _ => none

/-- The character of a `u` escape, behind the `u`.  A high surrogate needs a low one after it. -/
def readCodeEscape? (cs : List Char) : Option (Char × List Char) := do
  let (high, rest) ← readUnit? cs
  if 0xdc00 ≤ high ∧ high < 0xe000 then none
  else if 0xd800 ≤ high ∧ high < 0xdc00 then
    match rest with
    | '\\' :: 'u' :: rest =>
      let (low, rest) ← readUnit? rest
      if 0xdc00 ≤ low ∧ low < 0xe000 then
        some (Char.ofNat (0x10000 + (high - 0xd800) * 0x400 + (low - 0xdc00)), rest)
      else none
    | _ => none
  else some (Char.ofNat high, rest)

/-- The character of an escape, behind the backslash. -/
def readEscape? : List Char → Option (Char × List Char)
  | '"' :: rest => some ('"', rest)
  | '\\' :: rest => some ('\\', rest)
  | '/' :: rest => some ('/', rest)
  | 'b' :: rest => some ('\x08', rest)
  | 'f' :: rest => some ('\x0c', rest)
  | 'n' :: rest => some ('\n', rest)
  | 'r' :: rest => some ('\r', rest)
  | 't' :: rest => some ('\t', rest)
  | 'u' :: rest => readCodeEscape? rest
  | _ => none

/-!
Every round of a repetition takes at least one character, so the length of the text bounds the
number of rounds; that bound is passed on as `fuel`.
-/

/-- The characters of a string behind its opening quote, and what follows the closing one. -/
def readChars? : Nat → List Char → Option (List Char × List Char)
  | 0, _ => none
  | _, [] => none
  | _, '"' :: rest => some ([], rest)
  | fuel + 1, '\\' :: rest => do
    let (c, rest) ← readEscape? rest
    let (cs, rest) ← readChars? fuel rest
    return (c :: cs, rest)
  | fuel + 1, c :: rest =>
    if c.toNat < 0x20 then none
    else (readChars? fuel rest).map fun (cs, rest) => (c :: cs, rest)

/-- A string at the front of the text, and what follows it. -/
def readString? (fuel : Nat) : List Char → Option (String × List Char)
  | '"' :: rest => (readChars? fuel rest).map fun (cs, rest) => (String.ofList cs, rest)
  | _ => none

/-- A value read from the front of a text, with the text that follows it. -/
abbrev Reading := Option (Json × List Char)

/-- The items of an array up to the closing bracket, each read by `value`. -/
def readItems? (value : List Char → Reading) : Nat → List Char → Option (List Json × List Char)
  | 0, _ => none
  | fuel + 1, cs => do
    let (item, rest) ← value cs
    match skipGaps rest with
    | ']' :: rest => return ([item], rest)
    | ',' :: rest =>
      let (items, rest) ← readItems? value fuel (skipGaps rest)
      return (item :: items, rest)
    | _ => none

/-- A key, its colon and its value. -/
def readMember? (value : List Char → Reading) (fuel : Nat) (cs : List Char) :
    Option ((String × Json) × List Char) := do
  let (key, rest) ← readString? fuel cs
  match skipGaps rest with
  | ':' :: rest =>
    let (item, rest) ← value (skipGaps rest)
    return ((key, item), rest)
  | _ => none

/-- The members of an object up to the closing brace, in the order of the text. -/
def readMembers? (value : List Char → Reading) :
    Nat → List Char → Option (List (String × Json) × List Char)
  | 0, _ => none
  | fuel + 1, cs => do
    let (member, rest) ← readMember? value (fuel + 1) cs
    match skipGaps rest with
    | '\x7d' :: rest => return ([member], rest)
    | ',' :: rest =>
      let (members, rest) ← readMembers? value fuel (skipGaps rest)
      return (member :: members, rest)
    | _ => none

/-- What follows `word`, if the text starts with it. -/
def afterWord? : List Char → List Char → Option (List Char)
  | [], cs => some cs
  | w :: word, c :: cs => if w = c then afterWord? word cs else none
  | _ :: _, [] => none

/-- A value at the front of the text, in which arrays and objects nest at most `depth` deep. -/
def readValue? (fuel depth : Nat) (cs : List Char) : Reading :=
  match cs with
  | 'n' :: rest => (afterWord? ['u', 'l', 'l'] rest).map fun rest => (.null, rest)
  | 't' :: rest => (afterWord? ['r', 'u', 'e'] rest).map fun rest => (.bool true, rest)
  | 'f' :: rest => (afterWord? ['a', 'l', 's', 'e'] rest).map fun rest => (.bool false, rest)
  | '"' :: rest => (readString? fuel ('"' :: rest)).map fun (s, rest) => (.string s, rest)
  | '[' :: rest =>
    match depth with
    | 0 => none
    | depth + 1 =>
      match skipGaps rest with
      | ']' :: rest => some (.array [], rest)
      | rest =>
        (readItems? (readValue? fuel depth) fuel rest).map fun (items, rest) =>
          (.array items, rest)
  | '\x7b' :: rest =>
    match depth with
    | 0 => none
    | depth + 1 =>
      match skipGaps rest with
      | '\x7d' :: rest => some (.object [], rest)
      | rest =>
        (readMembers? (readValue? fuel depth) fuel rest).map fun (members, rest) =>
          (ofMembers members, rest)
  | _ => (JsonNumber.read? cs).map fun (n, rest) => (.number n, rest)
termination_by structural depth

/-- How deep arrays and objects may nest. -/
def maxDepth : Nat := 127

/-- Reads a text that holds exactly one value. -/
def parse? (text : String) : Option Json :=
  let cs := text.toList
  match readValue? cs.length maxDepth (skipGaps cs) with
  | some (value, rest) => if (skipGaps rest).isEmpty then some value else none
  | none => none

end TemplateConditions.Json
