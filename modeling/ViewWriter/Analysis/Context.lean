import ViewWriter.Analysis.Basic

/-!
The analysis as a context for templates.
-/

namespace ViewWriter.Analysis

open ViewWriter.Text

namespace StateVariable

def setter (v : StateVariable) : String := Name.setter v.name

def toFields (v : StateVariable) : Table Json := [
  ("name", .str v.name), ("setter", .str v.setter), ("initialValue", .str (literal v.initial)),
  ("type", v.type)]

end StateVariable

namespace Effect

def hasCleanup (e : Effect) : Bool := !e.cleanup.isNull

def toFields (e : Effect) : Table Json := [
  ("body", .str e.body), ("cleanup", e.cleanup), ("hasCleanup", .bool e.hasCleanup),
  ("deps", .ofStrings e.deps), ("depsList", .str (join ", " e.deps))]

end Effect

namespace Property

def toFields (p : Property) : Table Json := [
  ("name", .str p.name), ("type", p.type), ("optional", .bool p.optional),
  ("hasDefault", .bool p.default.isSome), ("default", .ofOption (p.default.map literal)),
  ("rawDefault", p.default.getD .null)]

/-- The property as it is taken out of the properties of a component. -/
def pattern (p : Property) : String :=
  match p.default with
  | some v => p.name ++ " = " ++ literal v
  | none => p.name

end Property

namespace Function

def paramList (f : Function) : String := join ", " f.params

def toFields (f : Function) : Table Json := [
  ("name", .str f.name), ("params", .ofStrings f.params), ("paramList", .str f.paramList),
  ("body", .str f.body)]

end Function

namespace Import

def toFields (i : Import) : Table Json := [
  ("name", .str i.name), ("source", .str i.source), ("weight", .float i.weight),
  ("kebabName", .str (Name.kebab i.name))]

end Import

namespace StyleRule

def toFields (r : StyleRule) : Table Json := [
  ("nodeId", .str r.nodeId), ("className", .str r.className), ("selector", .str r.selector),
  ("declarations", .arr (r.declarations.map fun d =>
    .obj [("property", .str d.1), ("value", .str d.2)]))]

end StyleRule

def objects (xs : List (Table Json)) : Json := .arr (xs.map .obj)

namespace Parts

def toContext (p : Parts) : Table Json := [
  ("componentName", p.name),
  ("hasState", .bool !p.state.isEmpty),
  ("hasEffect", .bool !p.effects.isEmpty),
  ("hasProps", .bool !p.props.isEmpty),
  ("hasImports", .bool !p.imports.isEmpty),
  ("hasFunctions", .bool !p.functions.isEmpty),
  ("hasStyles", .bool !p.styles.isEmpty),
  ("state", objects (p.state.map (·.toFields))),
  ("effects", objects (p.effects.map (·.toFields))),
  ("props", objects (p.props.map (·.toFields))),
  ("propBindings", .ofStrings (p.props.map (·.pattern))),
  ("imports", objects (p.imports.map (·.toFields))),
  ("functions", objects (p.functions.map (·.toFields))),
  ("styles", objects (p.styles.map (·.toFields))),
  ("markup", .str p.markup),
  ("custom", .obj p.custom)]

end Parts

end ViewWriter.Analysis
