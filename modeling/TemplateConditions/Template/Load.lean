import TemplateConditions.Json.Reader
import TemplateConditions.Template.Basic
import TemplateConditions.Template.ShortForm
import TemplateConditions.Text.Blank
import TemplateConditions.Yaml.Document

/-!
# Loading

A template is written in JSON or in YAML.  A file whose extension is `json` holds JSON; of any other
text the first character that is not blank decides: a brace starts JSON.
-/

namespace TemplateConditions.Template

/-- Reads a template in JSON. -/
def ofJsonText (text : String) : Except LoadError Template :=
  match Json.parse? text with
  | some root => ofJson root
  | none => .error .json

/-- Reads a template in YAML. -/
def ofYamlText (text : String) : Except LoadError Template :=
  match Yaml.Value.ofText text with
  | .error fault => .error (.yaml fault)
  | .ok value =>
    match value.toJson with
    | .ok root => ofJson root
    | .error key => .error (.unsupportedKey key)

/-- Does a text, blanks apart, start with a brace? -/
def startsWithBrace (text : String) : Bool :=
  (Text.trimLeft text.toList).head? == some '\x7b'

/-- Reads a template in the format that the text shows. -/
def ofText (text : String) : Except LoadError Template :=
  if startsWithBrace text then ofJsonText text else ofYamlText text

/-! ## Files -/

/-- What stands behind the last slash of a path, trailing slashes and points apart. -/
def fileName (path : String) : List Char :=
  let parts := (path.toList.splitOnP (· = '/')).filter fun part => part ≠ [] ∧ part ≠ ['.']
  parts.getLastD []

/-- What stands behind the last point of a file's name, if anything stands before that point. -/
def extension? (path : String) : Option (List Char) :=
  let name := fileName path
  if name = ['.', '.'] then none
  else
    match Text.splitAt? '.' name.reverse with
    | some (extension, _ :: _) => some extension.reverse
    | _ => none

/-- Is `json` the extension of a path, in any case? -/
def isJsonPath (path : String) : Bool :=
  (extension? path).any fun extension => extension.map Char.toLower = ['j', 's', 'o', 'n']

/-- Reads the template in a file, given what reading the bytes at its path led to. -/
def ofFile (path : String) (content : Except ReadFault ByteArray) : Except LoadError Template :=
  match content with
  | .error fault => .error (.unreadable path fault)
  | .ok bytes =>
    match String.fromUTF8? bytes with
    | none => .error (.unreadable path .encoding)
    | some text => if isJsonPath path then ofJsonText text else ofText text

end TemplateConditions.Template
