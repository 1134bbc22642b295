import ViewWriter.Json.Printer
import ViewWriter.Name.Case
import ViewWriter.Text.Markup

/-!
Functions that templates call on resolved arguments.
-/

namespace ViewWriter.Template

open ViewWriter.Text

abbrev Helper := List Json → Except Fault Json

namespace Helper

/-- A missing value is the empty text. -/
def text (v : Json) : String := if v.isNull then "" else v.display

/-- Margins that are longer are refused. -/
def maxMargin : Int := 2147483648

def margin (v : Json) : Except Fault (List Char) := do
  let n ← v.toInteger
  if maxMargin < n then .error .range else .ok (spaces n)

def onText (f : String → String) : Helper
  | [v] => .ok (.str (f (text v)))
  | _ => .error .kind

def join : Helper
  | [.null] | [.null, _] => .ok (.str "")
  | [.str s] | [.str s, _] => .ok (.str s)
  | [items] => items.elements.map fun vs => .str (Text.join ", " (vs.map text))
  | [items, separator] => items.elements.map fun vs => .str (Text.join (text separator) (vs.map text))
  | _ => .error .kind

def indentBy (value width : Json) : Except Fault Json :=
  (margin width).map fun m => .str (String.ofList (markLines m (text value).toList))

def indent : Helper
  | [value] => indentBy value (.int 2)
  | [value, width] => indentBy value width
  | _ => .error .kind

def commentWith (value : Json) (mark : String) : Json :=
  .str (String.ofList (markLines (mark.toList ++ [' ']) (text value).toList))

def comment : Helper
  | [value] => .ok (commentWith value "//")
  | [value, mark] => .ok (commentWith value mark.display)
  | _ => .error .kind

def json : Helper
  | [value] => .ok (.str (value.compact .unicode))
  | _ => .error .kind

def quoteWith (value : Json) (mark : String) : Json :=
  let escaped := replaceAll ['\\'] ['\\', '\\'] (text value).toList
  .str (mark ++ String.ofList (replaceAll mark.toList ('\\' :: mark.toList) escaped) ++ mark)

def quote : Helper
  | [value] => .ok (quoteWith value "'")
  | [value, .str mark] => .ok (quoteWith value mark)
  | _ => .error .kind

def isMissing : Json → Bool
  | .null => true
  | .str s => s == ""
  | _ => false

def default : Helper
  | [value] => .ok (if isMissing value then .str "" else value)
  | [value, fallback] => .ok (if isMissing value then fallback else value)
  | _ => .error .kind

def docCommentAt (value width : Json) : Except Fault Json :=
  if value.isGiven then
    (margin width).map fun m => .str (String.ofList (commentBlock m value.display.toList))
  else .ok (.str "")

def docComment : Helper
  | [value] => docCommentAt value (.int 0)
  | [value, width] => docCommentAt value width
  | _ => .error .kind

def templateLiteralAt (value width : Json) : Except Fault Json :=
  (margin width).map fun m => .str (String.ofList (markLines m (templateChars (text value).toList)))

def templateLiteral : Helper
  | [value] => templateLiteralAt value (.int 0)
  | [value, width] => templateLiteralAt value width
  | _ => .error .kind

def shared : List (String × Helper) := [
  ("join", join), ("indent", indent), ("comment", comment), ("json", json), ("quote", quote),
  ("default", default), ("pascalCase", onText Name.pascal), ("camelCase", onText Name.camel),
  ("kebabCase", onText Name.kebab), ("snakeCase", onText Name.snake), ("upper", onText upper),
  ("lower", onText lower)]

def htmlEscape : Helper := onText escapeQuoted

end Helper

end ViewWriter.Template
