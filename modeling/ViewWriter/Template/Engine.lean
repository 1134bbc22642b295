import ViewWriter.Template.Render
import ViewWriter.Template.Store

/-!
Rendering by template name: for one generator by kind, and otherwise by `generator.kind`.
-/

namespace ViewWriter.Template

open ViewWriter.Text

inductive RenderError where
  | store (e : StoreError)
  | fault (f : Fault)
deriving DecidableEq, Repr

structure Engine where
  store : Store
  generator : Option String

namespace Engine

def splitName (e : Engine) (name : String) : Except StoreError (String × String) :=
  match e.generator with
  | some g => .ok (g, name)
  | none => match cut '.' name.toList with
    | (g, some kind) => .ok (String.ofList g, String.ofList kind)
    | (_, none) => .error (.notFound "" name)

def renderSource (e : Engine) (generator : Option String) (source : String) (context : Json) :
    Except RenderError String :=
  match renderAll (e.store.helpersFor generator) (context.orElse (.obj [])) (compile source) with
  | .ok s => .ok s
  | .error f => .error (.fault f)

def renderString (e : Engine) (source : String) (context : Json) : Except RenderError String :=
  e.renderSource e.generator source context

def render (e : Engine) (name : String) (context : Json) : Except RenderError String :=
  match e.splitName name with
  | .error err => .error (.store err)
  | .ok (g, kind) => match e.store.template g kind with
    | .error err => .error (.store err)
    | .ok source => e.renderSource (some g) source context

def hasTemplate (e : Engine) (name : String) : Bool :=
  match e.splitName name with
  | .ok (g, kind) => e.store.has g kind
  | .error _ => false

end Engine

end ViewWriter.Template
