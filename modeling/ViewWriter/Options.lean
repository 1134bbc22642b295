import ViewWriter.Framework

/-!
What one generation is asked for. An option other than the framework holds whatever value it was
given.
-/

namespace ViewWriter

structure Options where
  framework : Option Framework := none
  typescript : Json := .bool false
  componentName : Json := .null
  description : Json := .null
  isModule : Json := .bool false
  pageName : Json := .null
  pageTitle : Json := .null
  optimize : Json := .bool false
  lazyImports : Json := .bool false

inductive OptionsError where
  | notObject
  | framework (e : UnknownFramework)
deriving DecidableEq

namespace Options

/-- The other spelling of an option's name. -/
def aliases : List (String × String) := [
  ("componentName", "component_name"), ("isModule", "is_module"), ("pageName", "page_name"),
  ("pageTitle", "page_title"), ("lazyImports", "lazy_imports")]

def canonical (key : String) : String := (aliases.lookup key).getD key

def member (fields : Table Json) (key : String) (default : Json) : Json :=
  (fields.get? key).getD default

/-- Options from named values in either spelling, the last of which counts. -/
def ofFields (fields : Table Json) : Except UnknownFramework Options := do
  let given : Table Json := Table.ofEntries (fields.map fun e => (canonical e.1, e.2))
  let framework ← match given.get? "framework" with
    | none | some .null => pure none
    | some v => (Framework.parse v).map some
  return {
    framework
    typescript := member given "typescript" (.bool false)
    componentName := member given "component_name" .null
    description := member given "description" .null
    isModule := member given "is_module" (.bool false)
    pageName := member given "page_name" .null
    pageTitle := member given "page_title" .null
    optimize := member given "optimize" (.bool false)
    lazyImports := member given "lazy_imports" (.bool false) }

def ofJson : Json → Except OptionsError Options
  | .obj fields => (ofFields fields).mapError .framework
  | _ => .error .notObject

/-- No value asks for nothing. -/
def ofOptional : Json → Except OptionsError Options
  | .null => .ok {}
  | v => ofJson v

def toContext (o : Options) : Table Json := [
  ("typescript", o.typescript), ("description", o.description), ("isModule", o.isModule),
  ("pageName", o.pageName), ("pageTitle", o.pageTitle)]

end Options

end ViewWriter
