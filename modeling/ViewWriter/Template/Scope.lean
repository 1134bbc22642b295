import ViewWriter.Json.Printer
import ViewWriter.Json.Reader
import ViewWriter.Template.Operand

/-!
What paths and operands stand for in a context.
-/

namespace ViewWriter.Template

open ViewWriter.Text

/-- Digits that count places, if they are digits of decimal notation. -/
def placeOf (segment : String) : Except Fault Nat :=
  match Number.integer? segment with
  | some i => .ok i.toNat
  | none => .error .content

/-- The value that a step leads to. -/
def step (value : Json) (segment : String) : Except Fault (Option Json) :=
  match value with
  | .obj fields => .ok (fields.lookup segment)
  | .arr items =>
    if segment != "" && segment.toList.all isDigit then (placeOf segment).map fun n => items[n]?
    else .ok none
  | _ => .ok none

/-- The value at the end of a path, if every step leads somewhere. -/
def follow (value : Json) : List String → Except Fault (Option Json)
  | [] => .ok (some value)
  | segment :: rest =>
    match step value segment with
    | .error e => .error e
    | .ok none => .ok none
    | .ok (some next) => follow next rest

def segments (path : String) : List String := (splitOn '.' path.toList).map String.ofList

def lookup (path : String) (context : Json) : Except Fault (Option Json) :=
  follow context (segments path)

def resolvePath (path : String) (context : Json) (default : Json := .null) : Except Fault Json :=
  (lookup path context).map fun v => v.getD default

/-- The text inside a pair of marks; a backslash stands before a character taken as it is. -/
def unescaped : List Char → List Char
  | [] => []
  | '\\' :: c :: rest => if c == '\n' then '\\' :: unescaped (c :: rest) else c :: unescaped rest
  | c :: rest => c :: unescaped rest

/-- A minus sign, digits, and perhaps a point and digits. -/
def isNumeral (cs : List Char) : Bool :=
  let digits := if cs.head? == some '-' then cs.drop 1 else cs
  match splitOn '.' digits with
  | [whole] => !whole.isEmpty && whole.all isDecimal
  | [whole, places] => !whole.isEmpty && whole.all isDecimal && !places.isEmpty && places.all isDecimal
  | _ => false

def numeral (s : String) : Except Fault Json :=
  if s.toList.contains '.' then
    match Number.real? s with
    | some x => .ok (.float x)
    | none => .error .content
  else match Number.integer? s with
    | some i => .ok (.int i)
    | none => .error .content

def keywords : List (String × Json) :=
  [("true", .bool true), ("false", .bool false), ("null", .null), ("undefined", .null)]

/-- The inside of a text between double quotes. -/
def quotedInside? (cs : List Char) : Option (List Char) :=
  match cs with
  | '"' :: rest => if rest.getLast? == some '"' then some rest.dropLast else none
  | _ => none

/-- The value of an operand: a text, a number, a keyword or a path. -/
def resolveOperand (operand : String) (context : Json) : Except Fault Json :=
  let s := trimmed operand
  match quotedInside? s.toList with
  | some inside => .ok (.str (String.ofList (unescaped inside)))
  | none =>
    if isNumeral s.toList then numeral s
    else match keywords.lookup s with
      | some v => .ok v
      | none => resolvePath s context

/-- A value as it is written into the output. -/
def stringify : Json → String
  | .null => ""
  | .bool b => if b then "true" else "false"
  | .int i => toString i
  | .float x => (Number.float x).writeWhole .plain
  | .str s => s
  | v => v.compact .ascii

def Condition.eval (context : Json) : Condition → Except Fault Bool
  | holds operand => (resolveOperand operand context).map Json.isGiven
  | equal left right => do
    let l ← resolveOperand left context
    let r ← resolveOperand right context
    return l.eq r
  | differ left right => do
    let l ← resolveOperand left context
    let r ← resolveOperand right context
    return !l.eq r

end ViewWriter.Template
