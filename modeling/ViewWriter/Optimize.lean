import ViewWriter.Code
import ViewWriter.Config.Basic
import ViewWriter.Json.Basic
import ViewWriter.Script.Fragment
import ViewWriter.Script.Loading
import ViewWriter.Script.Reference
import ViewWriter.Stylesheet.Merge

/-!
Smaller code by the settings of its generator: imports that nothing uses, repeated rules and
elements, and the loading of components. What is not understood stays as it is.
-/

namespace ViewWriter.Optimize

open ViewWriter.Script

def isContainer : Json → Bool
  | .arr _ | .obj _ => true
  | _ => false

/-- The names in a value; a list or an object is no name. -/
def names (v : Json) : Except Fault (List String) := do
  let items ← v.elements
  if items.any isContainer then throw .kind
  return items.filterMap Json.string?

/-- A script without unused imports. Names in `kept` stay, or those that the settings keep. -/
def imports (config : Config) (kept : Json) (code : String) : Except Fault String := do
  let preserve ← names (if kept.isNull then config.preserveImports else kept)
  return withoutUnused preserve code

/-- A flat stylesheet without repetition, written anew if there was any. -/
def styles (config : Config) (css : String) : Except Fault String :=
  match Stylesheet.parse? css with
  | none => .ok css
  | some rules =>
    if (Stylesheet.step? rules).isNone then .ok css
    else do
      let unit ← config.indentUnit
      return Stylesheet.write unit (Stylesheet.merged rules)

/-- Blocks of fewer lines are never shared. -/
def leastLines : Nat := 2

/-- A component script whose repeated blocks of at least `least` lines are declared once. -/
def fragments (config : Config) (least : Json) (code : String) : Except Fault String :=
  if !hasExport (Text.lines code.toList) then .ok code
  else do
    let n ← (if least.isNull then config.dedupeMinLines else least).toInteger
    shareBlocks config.indentUnit (max n.toNat leastLines) code

/-- The weight above which an import is loaded at once. -/
def threshold (config : Config) : Except Fault Number :=
  match config.eagerThreshold.number? with
  | some n => .ok n
  | none => .error .kind

def importBlock (config : Config) (framework : Framework) (indent : String)
    (imports : List WeightedImport) : Except Fault String :=
  if imports.isEmpty then .ok "" else do
    return block framework (← threshold config) indent imports

def byName (imports : List WeightedImport) : Table WeightedImport :=
  Table.ofEntries (imports.map fun i => (i.name, i))

def loading (config : Config) (framework : Framework) (imports : List WeightedImport)
    (code : String) : Except Fault String :=
  regroupLoading framework (threshold config) (byName imports) code

def notLazy : String := "Lazy imports are not applied to Angular standalone imports"

def wantsLazy (lazy : Json) (imports : List WeightedImport) : Bool :=
  lazy.isGiven && !imports.isEmpty

def mainScript (config : Config) (framework : Framework) (imports : List WeightedImport)
    (lazy : Json) (extension code : String) : Except Fault String := do
  let code ← Optimize.imports config .null code
  let code ← if wantsLazy lazy imports && framework != .angular
    then loading config framework imports code else pure code
  if extension == "jsx" || extension == "tsx" then fragments config .null code else return code

def artifact (config : Config) (framework : Framework) (imports : List WeightedImport)
    (lazy : Json) (kind : String) (a : Artifact) : Except Fault Artifact := do
  let extension := Text.lower a.extension
  let content ← if kind == "styles" && extension == "css" then styles config a.content
    else if kind == "main" then mainScript config framework imports lazy extension a.content
    else pure a.content
  return { a with content }

/-- The code with every file in its smaller form. File names stay. -/
def code (config : Config) (imports : List WeightedImport) (lazy : Json) (c : Code) :
    Except Fault Code := do
  let files ← c.files.mapM fun e => do
    return (e.1, ← artifact config c.framework imports lazy e.1 e.2)
  let unheeded := c.framework == .angular && wantsLazy lazy imports && c.files.has "main"
    && !c.warnings.contains notLazy
  return { c with
    files
    warnings := c.warnings ++ (if unheeded then [notLazy] else [])
    metadata := c.metadata.set "optimized" (.bool true) }

end ViewWriter.Optimize
