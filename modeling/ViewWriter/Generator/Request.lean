import ViewWriter.Generator.Registry
import ViewWriter.Optimize
import ViewWriter.Text.Lines

/-!
Serving requests: the view of a subject, its files, and on demand their smaller forms.
-/

namespace ViewWriter

open ViewWriter.Script

/-- The import of a component with its weight kept within `[0, 1]`. -/
def weighted (name source : String) (weight : Binary64) : Except BadWeight WeightedImport :=
  WeightedImport.make name source (.float weight.clampUnit)

namespace Generator

/-- The file that a template gives. -/
def artifact (engine : Template.Engine) (context : Json) (template name : String) :
    Except Failure Artifact := do
  let content ← engine.render template context
  return ⟨name, Text.tidy content⟩

def files (g : Generator) (engine : Template.Engine) (v : View) : Except Failure (Table Artifact) := do
  let context := Json.obj (← g.contextOf v)
  let main ← artifact engine context (if v.page then "page" else "component") v.files.main
  let styles ← artifact engine context "styles" v.files.styles
  let index ← artifact engine context "index" v.files.index
  return [("main", main), ("styles", styles), ("index", index)]

/-- The imports of a view as its files spell them. -/
def imports (g : Generator) (v : View) : List Analysis.Import := v.parts.imports.map g.target.spelled

def importFacts (i : Analysis.Import) : Table Json :=
  [("name", .str i.name), ("source", .str i.source), ("weight", .float i.weight)]

def facts (g : Generator) (v : View) : Table Json := [
  ("componentName", v.name), ("page", .bool v.page),
  ("imports", Analysis.objects ((g.imports v).map importFacts)),
  ("stateCount", .ofNat v.parts.state.length), ("styleRuleCount", .ofNat v.parts.styles.length)]

def write (g : Generator) (engine : Template.Engine) (v : View) : Except Failure Code := do
  let files ← g.files engine v
  let warnings ← g.config.warnings g.framework.key
  return { files, framework := g.framework, warnings, metadata := g.facts v }

def weightedImports (g : Generator) (v : View) : Except BadWeight (List WeightedImport) :=
  (g.imports v).mapM fun i => weighted i.name i.source i.weight

def generate (g : Generator) (engine : Template.Engine) (s : Subject) (o : Options) :
    Except Failure Code := do
  let v ← g.view s o
  let code ← g.write engine v
  if o.optimize.isGiven then
    Optimize.code g.config (← g.weightedImports v) o.lazyImports code
  else return code

end Generator

namespace Registry

/-- Serves a request. The registry takes no generators from then on. -/
def generate (r : Registry) (s : Subject) (o : Options) : Registry × Except Failure Code :=
  match r.resolve o.framework with
  | .error e => (r, .error (.registry e))
  | .ok g => (r.freeze, g.generate (r.freeze.engine g) s o)

end Registry

def generate (s : Subject) (o : Options) : Except Failure Code := do
  let r ← Registry.builtIn
  (r.generate s o).2

end ViewWriter
