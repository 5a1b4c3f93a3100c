import TemplateConditions.Yaml.Tag
import TemplateConditions.Yaml.Value

/-!
# Scalar values

What the text of a scalar stands for.  A plain scalar is null, a boolean, an integer or a float if
it is written like one, and a text otherwise; quoted scalars and block scalars are texts.  A
standard tag overrules that.
-/

namespace TemplateConditions.Yaml.Scalar

def isNull (text : String) : Bool :=
  text == "null" || text == "Null" || text == "NULL" || text == "~"

def bool? (text : String) : Option Bool :=
  if text == "true" || text == "True" || text == "TRUE" then some true
  else if text == "false" || text == "False" || text == "FALSE" then some false
  else none

/-! ## Integers -/

/-- A digit of a base of at most ten. -/
def digitBelow? (base : Nat) (c : Char) : Option Nat :=
  (Text.decimalValue? c).filter (· < base)

/-- Does the text hold more than one digit and start with zero?  Then it is no number. -/
def isZeroPadded (cs : List Char) : Bool :=
  match cs with
  | '0' :: rest => !rest.isEmpty && rest.all Text.isDigit
  | _ => false

/-- The text without a sign in front. -/
def unsigned : List Char → List Char
  | '+' :: rest => rest
  | '-' :: rest => rest
  | cs => cs

/-- A natural number in hexadecimal, octal or binary behind a zero and the letter of its base, or in
decimal. -/
def natural? : List Char → Option Nat
  | '0' :: 'x' :: rest => Text.readDigits? Text.hexValue? 16 rest
  | '0' :: 'o' :: rest => Text.readDigits? (digitBelow? 8) 8 rest
  | '0' :: 'b' :: rest => Text.readDigits? (digitBelow? 2) 2 rest
  | cs => if isZeroPadded cs then none else Text.readDigits? Text.decimalValue? 10 cs

/-- An integer of any size, with an optional sign. -/
def integer? (text : String) : Option Int :=
  match text.toList with
  | '+' :: rest => (natural? rest).map fun n => (n : Int)
  | '-' :: rest => (natural? rest).map fun n => -(n : Int)
  | cs => (natural? cs).map fun n => (n : Int)

/-- How an integer is kept: 64 bits hold it, signed or unsigned; only 128 bits do; or neither. -/
inductive Width where
  | word
  | doubleWord
  | wider
  deriving DecidableEq

def widthOf (n : Int) : Width :=
  if -(power 2 63 : Int) ≤ n ∧ n < power 2 64 then .word
  else if -(power 2 127 : Int) ≤ n ∧ n < power 2 128 then .doubleWord
  else .wider

/-! ## Floats -/

/-- A decimal number with an optional point and an optional exponent, and with at least one digit
before the exponent; none where it is infinite. -/
def decimal? (negative : Bool) (cs : List Char) : Option Binary64 := do
  let (whole, cs) := Text.spanDigits cs
  let (fraction, cs) : List Nat × List Char := match cs with
    | '.' :: rest => Text.spanDigits rest
    | _ => ([], cs)
  if whole.isEmpty && fraction.isEmpty then none
  let (exponent, cs) ← Text.readExponent? cs
  if !cs.isEmpty then none
  Binary64.ofDecimal? negative (Text.ofDigits (whole ++ fraction))
    (exponent.getD 0 - fraction.length)

/-- A decimal number with an optional sign, an infinity with an optional sign, or NaN. -/
def float? (text : String) : Option Number :=
  if text == ".nan" || text == ".NaN" || text == ".NAN" then some .nan
  else
    let cs := text.toList
    let magnitude := String.ofList (unsigned cs)
    let negative := cs.head? == some '-'
    if magnitude == ".inf" || magnitude == ".Inf" || magnitude == ".INF" then
      some (.infinite negative)
    else (decimal? negative (unsigned cs)).map .float

/-! ## Values -/

/-- The value of a plain scalar.  An integer that only 128 bits hold is refused. -/
def plainValue (text : String) : Except Fault Value :=
  if text == "" || isNull text then .ok .null
  else
    match bool? text with
    | some value => .ok (.bool value)
    | none =>
      match (integer? text).map fun n => (n, widthOf n) with
      | some (n, .word) => .ok (.number (.int n))
      | some (_, .doubleWord) => .error .integerRange
      | _ =>
        if isZeroPadded (unsigned text.toList) then .ok (.string text)
        else
          match float? text with
          | some x => .ok (.number x)
          | none => .ok (.string text)

/-- The value of a scalar without a tag. -/
def untaggedValue (plain : Bool) (text : String) : Except Fault Value :=
  if plain then plainValue text else .ok (.string text)

def boolTag : Tag := .ofText "tag:yaml.org,2002:bool"
def intTag : Tag := .ofText "tag:yaml.org,2002:int"
def floatTag : Tag := .ofText "tag:yaml.org,2002:float"
def nullTag : Tag := .ofText "tag:yaml.org,2002:null"

/-- The value that is there, or the fault that the text does not fit its tag. -/
def fitting (value : Option Value) : Except Fault Value :=
  match value with
  | some value => .ok value
  | none => .error .scalarType

/-- The value of a scalar with a tag.  The four standard types are forced, also on quoted text;
other tags make a text, but a private one leaves a plain scalar as it is. -/
def taggedValue (tag : Tag) (plain : Bool) (text : String) : Except Fault Value :=
  if tag = boolTag then fitting ((bool? text).map .bool)
  else if tag = intTag then
    fitting (((integer? text).filter (widthOf · = .word)).map fun n => .number (.int n))
  else if tag = floatTag then fitting ((float? text).map .number)
  else if tag = nullTag then fitting (if isNull text then some .null else none)
  else if tag.isPrivate && plain then plainValue text
  else .ok (.string text)

end TemplateConditions.Yaml.Scalar
