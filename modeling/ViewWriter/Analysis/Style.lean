import ViewWriter.Analysis.Declaration

/-!
Style classes of nodes and the rules for them.
-/

namespace ViewWriter.Analysis

open ViewWriter.Text ViewWriter.Schema

/-- Style properties that take bare numbers. -/
def unitless : List String := [
  "animation-iteration-count", "column-count", "flex", "flex-grow", "flex-shrink", "font-weight",
  "line-height", "opacity", "order", "orphans", "widows", "z-index", "zoom"]

/-- A style value; a number gets a unit unless it is zero or the property takes none. -/
def styleValue (property : String) (value : Json) (unit : String) : String :=
  match value with
  | .bool b => if b then "true" else "false"
  | .int i => number (.int i)
  | .float x => number (.float x)
  | v => v.display
where
  number (n : Number) : String :=
    if n.isZero || unitless.contains property then n.write .source else n.write .source ++ unit

structure StyleRule where
  nodeId : String
  className : String
  declarations : List (String × String)

namespace StyleRule

def selector (r : StyleRule) : String := "." ++ r.className

end StyleRule

/-- A custom property keeps its name, and any other is written with hyphens. -/
def styleProperty (name : String) : String :=
  if "--".toList.isPrefixOf name.toList then name else Name.kebab name

def isEmptyValue : Json → Bool
  | .null => true
  | .str s => s == ""
  | _ => false

def styleDeclarations (unit : String) (style : Table Json) : List (String × String) :=
  (style.filter fun e => !isEmptyValue e.2).map fun e =>
    let property := styleProperty e.1
    (property, styleValue property e.2 unit)

/-- Class names for the styled nodes, each different from those before it. -/
def classNamesFrom (prefixName : Option String) (taken : List String) :
    List Record → Table String
  | [] => []
  | r :: rest =>
    if r.style.isEmpty then classNamesFrom prefixName taken rest
    else
      let base := Name.styleClass prefixName r.type r.id
      let name := Name.fresh taken base fun n => base ++ "-" ++ toString n
      (r.id, name) :: classNamesFrom prefixName (name :: taken) rest

def classNames (config : Config) (records : List Record) : Except Fault (Table String) :=
  if records.all (·.style.isEmpty) then .ok []
  else config.stylePrefix.map fun p => classNamesFrom p [] records

/-- The rules of the styled nodes that declare anything. -/
def styleRules (unit : String) (classes : Table String) (records : List Record) : List StyleRule :=
  records.filterMap fun r =>
    (classes.get? r.id).bind fun className =>
      let declarations := styleDeclarations unit r.style
      if declarations.isEmpty then none else some ⟨r.id, className, declarations⟩

end ViewWriter.Analysis
