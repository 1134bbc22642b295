import ViewWriter.Analysis.Style
import ViewWriter.Markup.Render
import ViewWriter.Schema.Arena

/-!
The analysis of a component tree or of a page: all that templates need to know about it.
-/

namespace ViewWriter

open ViewWriter.Schema ViewWriter.Markup

inductive AnalysisError where
  | schema (e : SchemaError)
  | fault (f : Fault)
deriving DecidableEq

namespace Analysis

/-- The parts found in a tree, with its markup and the custom settings. -/
structure Parts where
  name : Json
  state : List StateVariable
  effects : List Effect
  props : List Property
  imports : List Import
  functions : List Function
  styles : List StyleRule
  markup : String
  custom : Table Json

def fromSchema {α : Type} (x : Except SchemaError α) : Except AnalysisError α := x.mapError .schema

def fromFault {α : Type} (x : Except Fault α) : Except AnalysisError α := x.mapError .fault

/-- A name in the form that components have; one without letters and digits is the default name. -/
def componentNamed (config : Config) (given : Json) : Json :=
  match Name.component given.display "" with
  | "" => config.defaultName
  | name => .str name

def componentName (config : Config) (props : Table Json) : Json :=
  let given := Json.member props "componentName"
  if given.isGiven then componentNamed config given else config.defaultName

/-- Analyses the tree at `root`; `sections` are the parts whose custom nodes are counted. -/
def ofArena (dialect : Dialect) (unit : String) (config : Config) (arena : Arena) (root : String)
    (sections : List String) : Except AnalysisError Parts := do
  let records ← fromSchema (arena.walkAt root)
  let rootRecord ← fromSchema (arena.node root)
  let classes ← fromFault (classNames config records)
  let styles := styleRules config.cssUnit.display classes records
  let effects ← fromFault (effects records)
  let functions ← fromFault (functions records)
  let sectionRecords ← fromSchema (sections.mapM arena.walkAt)
  let imports ← fromFault (imports records sectionRecords)
  let tree ← fromSchema (arena.toTree root)
  let custom ← fromFault config.custom.table
  return {
    name := componentName config rootRecord.props
    state := stateVariables records
    effects
    props := properties records
    imports
    functions
    styles
    markup := dialect.render unit classes tree
    custom }

def ofComponent (dialect : Dialect) (unit : String) (config : Config) (source : Source) :
    Except AnalysisError Parts := do
  let arena ← fromSchema (Arena.ofSource source)
  match arena.roots with
  | [] => throw (.fault .place)
  | root :: _ => ofArena dialect unit config arena root [root]

def ofPage (dialect : Dialect) (unit : String) (config : Config) (sections : List Source) :
    Except AnalysisError Parts := do
  let arena ← fromSchema (Arena.wrap sections)
  ofArena dialect unit config arena Arena.pageRoot (arena.childrenOf Arena.pageRoot)

end Analysis

end ViewWriter
