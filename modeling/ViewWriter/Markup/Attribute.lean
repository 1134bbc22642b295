import ViewWriter.Json.Printer
import ViewWriter.Number.Basic
import ViewWriter.Text.Markup

/-!
What a property of a node means for its markup.
-/

namespace ViewWriter.Markup

open ViewWriter.Text

/-- Properties about behaviour, which markup does not show. -/
def metaKeys : List String :=
  ["state", "effects", "propDefs", "imports", "functions", "componentName"]

def classKeys : List String := ["className", "class"]

/-- The expression that a value is bound to. -/
def bindingExpression : Json → Option String
  | .obj fields => (Table.get? fields "$bind").bind Json.string?
  | _ => none

/-- The event of a property `onXxx`. -/
def eventName? (name : String) : Option String :=
  match name.toList with
  | 'o' :: 'n' :: c :: rest =>
    if isAsciiUpper c && rest.all isAsciiLetter then some (String.ofList (c :: rest)) else none
  | _ => none

inductive Attribute where
  | event (name handler : String)
  | binding (name expression : String)
  | flag (name : String)
  | number (name : String) (value : Number)
  | text (name value : String)
deriving DecidableEq

/-- The attribute for a property, unless it is null or false. -/
def Attribute.ofValue? (name : String) (value : Json) : Option Attribute :=
  match bindingExpression value with
  | some expression => some (binding name expression)
  | none => match value with
    | .null => none
    | .bool b => if b then some (flag name) else none
    | .int i => some (number name (.int i))
    | .float x => some (number name (.float x))
    | .str s => match eventName? name with
      | some e => some (event e s)
      | none => some (text name s)
    | v => some (binding name (v.compact .unicode))

/-- The style classes that a node names itself. -/
def staticClasses (props : Table Json) : List String :=
  classKeys.flatMap fun key => match props.get? key with
    | some (.str s) => (fields s.toList).map String.ofList
    | _ => []

end ViewWriter.Markup
