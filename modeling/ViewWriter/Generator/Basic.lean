import ViewWriter.Failure
import ViewWriter.Target.Angular
import ViewWriter.Target.Html
import ViewWriter.Target.React
import ViewWriter.Target.Vue

/-!
Generators: a target with its settings. A generator first makes a view of its subject, and all
files are then written from the context of this one view.
-/

namespace ViewWriter

/-- What code is generated for. -/
inductive Subject where
  | component (source : Schema.Source)
  | page (sections : List Schema.Source)

namespace Subject

def isPage : Subject → Bool
  | component _ => false
  | page _ => true

end Subject

def Target.ofFramework : Framework → Target
  | .react => Target.React.target
  | .vue => Target.Vue.target
  | .angular => Target.Angular.target
  | .html => Target.Html.target

structure Generator where
  target : Target
  config : Config
  /-- what the generator is called, and where it is at home -/
  title : String
  place : String

namespace Generator

def framework (g : Generator) : Framework := g.target.framework

/-- The generator of a framework. -/
def ofFramework (f : Framework) (config : Config) : Generator where
  target := Target.ofFramework f
  config
  title := f.title ++ "Generator"
  place := "ui_codegen.codegen.frameworks." ++ f.key ++ ".generator"

def custom (f : Framework) (config : Config) (templates : Option (Table Json))
    (helpers : Option (List (String × Template.Candidate))) (place : String) : Generator :=
  let target := Target.ofFramework f
  { target := { target with
      templates := templates.getD target.templates
      helpers := helpers.getD target.helpers }
    config
    title := "Custom" ++ f.title ++ "Generator"
    place }

open ViewWriter.Analysis

def parts (g : Generator) (s : Subject) (o : Options) : Except Failure Parts := do
  let dialect ← g.target.dialect g.config o
  let unit ← g.config.indentUnit
  match s with
  | .component source => ofComponent dialect unit g.config source
  | .page sections => ofPage dialect unit g.config sections

def namedPage (config : Config) (o : Options) : Json :=
  componentNamed config (o.pageName.orElse (o.componentName.orElse (.str "Page")))

/-- The name of a subject: the one that is asked for, or that of its root. -/
def subjectName (g : Generator) (p : Parts) (page : Bool) (o : Options) : Json :=
  if page then namedPage g.config o
  else if o.componentName.isGiven then componentNamed g.config o.componentName
  else p.name

/-- The view of an analysis. A page takes no properties. -/
def viewOf (g : Generator) (p : Parts) (page : Bool) (o : Options) : View :=
  let name := g.subjectName p page o
  { parts := { p with name, props := if page then [] else p.props }
    page
    typescript := o.typescript
    description := if g.config.addComments.isGiven then o.description else .null
    isModule := o.isModule
    pageName := if page then name else .null
    pageTitle := if page then o.pageTitle.orElse name else .null
    files := g.target.fileNames name.display o }

def view (g : Generator) (s : Subject) (o : Options) : Except Failure View :=
  (g.parts s o).map fun p => g.viewOf p s.isPage o

def contextOf (g : Generator) (v : View) : Except Fault (Table Json) :=
  (g.target.additions g.config v).map v.toContext.merge

def context (g : Generator) (s : Subject) (o : Options) : Except Failure (Table Json) := do
  g.contextOf (← g.view s o)

end Generator

end ViewWriter
