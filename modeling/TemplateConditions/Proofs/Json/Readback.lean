import Mathlib.Data.List.Basic
import TemplateConditions.Json.Reader
import TemplateConditions.Proofs.Text.Hexadecimal

/-!
# Steps of reading

What each reader returns, from what the readers of the parts return: escapes and strings, then the
members of an object, and the text as a whole.
-/

namespace TemplateConditions.Json

/-! ## Strings -/

theorem readUnit?_hexDigits {n : Nat} (h : n < 0x10000) (rest : List Char) :
    readUnit? (Text.hexDigits 4 n ++ rest) = some (n, rest) := by
  have hread : Text.readDigits? Text.hexValue? 16 (Text.hexDigits 4 n) = some n :=
    Text.readDigits?_hexDigits h
  obtain ⟨a, b, c, d, hdigits⟩ := List.length_eq_four.1 (Text.length_hexDigits 4 n)
  rw [hdigits] at hread ⊢
  show (Text.readDigits? Text.hexValue? 16 [a, b, c, d]).map _ = _
  rw [hread]
  rfl

theorem readChars?_plain {c : Char} (hcontrol : 0x20 ≤ c.toNat) (hquote : c ≠ '"')
    (hbackslash : c ≠ '\\') (fuel : Nat) (rest : List Char) :
    readChars? (fuel + 1) (c :: rest) =
      (readChars? fuel rest).map fun (cs, rest) => (c :: cs, rest) := by
  rw [readChars?, if_neg (Nat.not_lt_of_le hcontrol)]
  · exact hquote
  · exact hbackslash

theorem readChars?_escape {cs rest : List Char} {c : Char}
    (h : readEscape? cs = some (c, rest)) (fuel : Nat) :
    readChars? (fuel + 1) ('\\' :: cs) =
      (readChars? fuel rest).map fun (cs, rest) => (c :: cs, rest) := by
  rw [readChars?, h, Option.bind_eq_bind, Option.bind_some]
  dsimp only
  cases readChars? fuel rest <;> rfl

theorem readString?_of_chars {fuel : Nat} {behind cs rest : List Char}
    (h : readChars? fuel behind = some (cs, rest)) :
    readString? fuel ('"' :: behind) = some (String.ofList cs, rest) := by
  rw [readString?, h]
  rfl

/-! ## Values -/

theorem readValue?_of_string {fuel depth : Nat} {behind rest : List Char} {text : String}
    (h : readString? fuel ('"' :: behind) = some (text, rest)) :
    readValue? fuel depth ('"' :: behind) = some (.string text, rest) := by
  rw [readValue?, h]
  rfl

variable {value : List Char → Reading}

theorem readMember?_of_parts {fuel : Nat} {cs behind rest : List Char} {key : String} {item : Json}
    (hkey : readString? fuel cs = some (key, ':' :: behind))
    (hitem : value (skipGaps behind) = some (item, rest)) :
    readMember? value fuel cs = some ((key, item), rest) := by
  rw [readMember?, hkey]
  show (value (skipGaps behind)).bind _ = _
  rw [hitem]
  rfl

/-- A closing brace ends the members. -/
theorem readMembers?_of_last {fuel : Nat} {cs rest : List Char} {member : String × Json}
    (h : readMember? value (fuel + 1) cs = some (member, '\x7d' :: rest)) :
    readMembers? value (fuel + 1) cs = some ([member], rest) := by
  rw [readMembers?, h]
  rfl

theorem readValue?_of_members {fuel depth : Nat} {behind rest : List Char} {members : Members}
    (h : readMembers? (readValue? fuel depth) fuel ('"' :: behind) = some (members, rest)) :
    readValue? fuel (depth + 1) ('\x7b' :: '"' :: behind) = some (ofMembers members, rest) := by
  rw [readValue?]
  show (readMembers? (readValue? fuel depth) fuel ('"' :: behind)).map _ = _
  rw [h]
  rfl

theorem parse?_of_value {cs : List Char} {json : Json}
    (h : readValue? cs.length maxDepth (skipGaps cs) = some (json, [])) :
    parse? (String.ofList cs) = some json := by
  rw [parse?, String.toList_ofList, h]
  rfl

end TemplateConditions.Json
