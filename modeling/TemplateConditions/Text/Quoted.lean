import TemplateConditions.Text.Digits
import TemplateConditions.Text.Printable

/-!
# Quoted text

The form in which messages and listings show a text: between double quotes, with the quote and the
backslash escaped, and with characters that do not show by themselves given by their code point.
-/

namespace TemplateConditions.Text

/-- The shown form of one character. -/
def shown (c : Char) : List Char :=
  match c with
  | '"' => ['\\', '"']
  | '\\' => ['\\', '\\']
  | '\n' => ['\\', 'n']
  | '\r' => ['\\', 'r']
  | '\t' => ['\\', 't']
  | '\x00' => ['\\', '0']
  | c =>
    if isPrintable c then [c]
    else '\\' :: 'u' :: '\x7b' :: hex c.toNat ++ ['\x7d']

/-- The text between double quotes. -/
def quoted (s : String) : String :=
  String.ofList ('"' :: s.toList.flatMap shown ++ ['"'])

end TemplateConditions.Text
