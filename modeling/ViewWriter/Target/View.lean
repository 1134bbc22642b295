import ViewWriter.Analysis.Context
import ViewWriter.Options
import ViewWriter.Template.Store

/-!
What a target renders: the analysis of one component or page, with the options and file names.
-/

namespace ViewWriter

structure FileNames where
  main : String
  styles : String
  index : String
deriving DecidableEq, Repr

namespace FileNames

def withoutExtension (name : String) : String :=
  match name.toList.reverse.dropWhile (· != '.') with
  | _ :: stem => String.ofList stem.reverse
  | [] => name

def scriptExtension (typescript : Bool) : String := if typescript then "ts" else "js"

def stylesheet (base : String) (isModule : Bool) : String :=
  if isModule then base ++ ".module.css" else base ++ ".css"

end FileNames

structure View where
  parts : Analysis.Parts
  page : Bool
  typescript : Json
  description : Json
  isModule : Json
  pageName : Json
  pageTitle : Json
  files : FileNames

namespace View

def name (v : View) : Json := v.parts.name

/-- A page with a title sets it when it is shown. -/
def setsTitle (v : View) : Bool := v.page && v.pageTitle.isGiven

def toContext (v : View) : Table Json :=
  Table.merge v.parts.toContext [
    ("typescript", v.typescript), ("description", v.description), ("isModule", v.isModule),
    ("pageName", v.pageName), ("pageTitle", v.pageTitle), ("fileName", .str v.files.main),
    ("styleFile", .str v.files.styles),
    ("moduleName", .str (FileNames.withoutExtension v.files.main))]

end View

/-- A framework that code is generated for. -/
structure Target where
  framework : Framework
  templates : Table Json
  helpers : List (String × Template.Candidate)
  dialect : Config → Options → Except Fault Markup.Dialect
  fileNames : String → Options → FileNames
  /-- an import as the target spells it -/
  spelled : Analysis.Import → Analysis.Import := id
  /-- what the target adds to the context of a view -/
  additions : Config → View → Except Fault (Table Json)

end ViewWriter
