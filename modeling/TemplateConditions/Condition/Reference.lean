import TemplateConditions.Digest.Sha1
import TemplateConditions.Json.Printer

/-!
# References and their tokens

A reference names a parameter.  Its token is the SHA-1 digest of a canonical text, the expression
`Ref` of the name written as ASCII-only JSON, so tokens are the same in every run.
-/

namespace TemplateConditions

/-- The stable identifier that stands for a reference: forty hexadecimal digits. -/
structure Token where
  hex : String
  deriving DecidableEq, Inhabited

namespace Token

instance : Ord Token := ⟨compareOn Token.hex⟩

instance : Std.TransOrd Token := inferInstanceAs (Std.TransCmp (compareOn Token.hex))

instance : Std.LawfulEqOrd Token where
  eq_of_compare {a b} h := by
    cases a; cases b
    exact congrArg Token.mk (Std.LawfulEqOrd.eq_of_compare h)

end Token

/-- A reference to a parameter by its name. -/
structure Reference where
  name : String
  deriving DecidableEq

namespace Reference

/-- The code units of a character in UTF-16. -/
def codeUnits (c : Char) : List Nat :=
  if c.toNat < 0x10000 then [c.toNat]
  else [0xd800 + (c.toNat - 0x10000) / 0x400, 0xdc00 + (c.toNat - 0x10000) % 0x400]

/-- Writes a character outside printable ASCII by its code units. -/
def asciiOnly (c : Char) : List Char :=
  if c.toNat < 0x7f then [c]
  else (codeUnits c).flatMap fun unit => '\\' :: 'u' :: Text.hexDigits 4 unit

/-- The text whose digest is the token: the one-member object `Ref` of the name, with one blank
after the colon. -/
def canonicalText (reference : Reference) : List Char :=
  "\x7b\"Ref\": ".toList ++ (Json.quoteChars reference.name.toList).flatMap asciiOnly ++ ['\x7d']

def token (reference : Reference) : Token :=
  ⟨Digest.Sha1.hexDigest (reference.canonicalText.map fun c => UInt8.ofNat c.toNat)⟩

/-- The references that every template may use without declaring them. -/
def pseudoParameters : List Reference :=
  [⟨"AWS::AccountId"⟩, ⟨"AWS::NoValue"⟩, ⟨"AWS::NotificationARNs"⟩, ⟨"AWS::Partition"⟩,
    ⟨"AWS::Region"⟩, ⟨"AWS::StackId"⟩, ⟨"AWS::StackName"⟩, ⟨"AWS::URLSuffix"⟩]

def isPseudoParameter (reference : Reference) : Bool :=
  pseudoParameters.contains reference

/-- Reads the expression `Ref`: an object whose only member is `Ref` with a string. -/
def ofJson? : Json → Option Reference
  | .object [("Ref", .string name)] => some ⟨name⟩
  | _ => none

/-- The reference as messages show it. -/
def text (reference : Reference) : String :=
  "Ref(" ++ reference.name ++ ")"

end Reference

/-- The token of the reference with the given name. -/
def Token.ofName (name : String) : Token :=
  (Reference.mk name).token

end TemplateConditions
