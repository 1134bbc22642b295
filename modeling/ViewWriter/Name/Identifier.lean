import ViewWriter.Name.Case

/-!
Names that stand in generated code: bindings, components, setters and style classes.
-/

namespace ViewWriter.Name

open ViewWriter.Text

def reservedWords : List String := [
  "break", "case", "catch", "class", "const", "continue", "debugger", "default", "delete", "do",
  "else", "enum", "export", "extends", "false", "finally", "for", "function", "if", "import", "in",
  "instanceof", "let", "new", "null", "return", "super", "switch", "this", "throw", "true", "try",
  "typeof", "var", "void", "while", "with", "yield", "await", "implements", "interface", "package",
  "private", "protected", "public", "static"]

/-- Globals that generated code must not hide. -/
def protectedNames : List String := [
  "array", "boolean", "date", "document", "error", "fragment", "json", "map", "math", "number",
  "object", "promise", "react", "set", "string", "symbol", "window"]

def isAsciiIdentifierPart (c : Char) : Bool := isAsciiAlphanumeric c || c == '_' || c == '$'

def isAsciiIdentifier : List Char → Bool
  | [] => false
  | c :: rest => isIdentifierStart c && rest.all isAsciiIdentifierPart

/-- A text without a line break at its end. -/
def withoutFinalBreak (cs : List Char) : List Char :=
  if cs.getLast? == some '\n' then cs.dropLast else cs

/-- Names that can be bound as written. A line break at the end is not looked at. -/
def isBinding (name : String) : Bool :=
  isAsciiIdentifier (withoutFinalBreak name.toList) && !reservedWords.contains name

/-- The name of a component: words with capitals, never empty, never a digit at the start. -/
def component (name default : String) : String :=
  match pascalChars name.toList with
  | [] => default
  | c :: rest => if isAsciiDigit c then "Component" ++ String.ofList (c :: rest) else String.ofList (c :: rest)

def defaultComponent : String := "GeneratedComponent"

def setter (state : String) : String :=
  "set" ++ match state.toList with
    | [] => ""
    | c :: rest => String.ofList (capitalForm c ++ rest)

def orDefault (s default : String) : String := if s == "" then default else s

/-- The style class of a node, from its type and id. -/
def styleClass (prefixName : Option String) (type id : String) : String :=
  let own := [orDefault (kebab type) "node", orDefault (kebab id) "x"]
  match prefixName with
  | some p => join "-" (p :: own)
  | none => join "-" own

end ViewWriter.Name
