import ViewWriter.Generator.Basic

/-!
The generators that are available, one for each framework, and the store that they share. No
generator is added once code has been generated.
-/

namespace ViewWriter

structure Registry where
  store : Template.Store := {}
  generators : List Generator := []
  active : Option Framework := none

namespace Registry

def find? (r : Registry) (f : Framework) : Option Generator :=
  r.generators.find? fun g => g.framework == f

def has (r : Registry) (f : Framework) : Bool := (r.find? f).isSome

def frameworks (r : Registry) : List Framework := r.generators.map (·.framework)

def freeze (r : Registry) : Registry := { r with store := r.store.freeze }

def engine (r : Registry) (g : Generator) : Template.Engine := ⟨r.store, some g.framework.key⟩

/-- Puts a generator in the place of the one for its framework, or last. -/
def put (generators : List Generator) (g : Generator) : List Generator :=
  if generators.any fun h => h.framework == g.framework
  then generators.map fun h => if h.framework == g.framework then g else h
  else generators ++ [g]

/-- Adds a generator with its templates and helpers. One whose framework is there is passed over,
unless it is to replace the other. What the store took before a failure stays in it. -/
def register (r : Registry) (g : Generator) (replace : Bool) :
    Attempt Registry Template.StoreError :=
  if r.has g.framework && !replace then ⟨r, none⟩
  else
    let key := g.framework.key
    let filled := (r.store.putTemplates key g.target.templates).andThen
      fun s => s.putHelpers g.target.helpers (some key)
    let generators := if filled.failure.isNone then put r.generators g else r.generators
    ⟨{ r with store := filled.state, generators }, filled.failure⟩

/-- Makes a framework the one that counts when none is asked for. It can be chosen once. -/
def activate (r : Registry) (key : Json) : Except Failure Registry := do
  let f ← Framework.parse key
  if !r.has f then throw (.registry (.notActivated f))
  match r.active with
  | some g => if g == f then return r else throw (.registry (.otherActive g))
  | none => return { r with active := some f }

def get (r : Registry) (f : Framework) : Except RegistryError Generator :=
  match r.find? f with
  | some g => .ok g
  | none => .error (.notRegistered f r.frameworks)

def getNamed (r : Registry) (key : Json) : Except Failure Generator := do
  r.get (← Framework.parse key)

/-- The generator for a request: that of the wanted framework, else the active, else the first. -/
def resolve (r : Registry) (wanted : Option Framework) : Except RegistryError Generator :=
  match r.generators, wanted with
  | [], _ => .error .empty
  | _, some f => r.get f
  | first :: _, none => .ok (((r.active.bind r.find?)).getD first)

/-- The generator for a request that names its framework or nothing. -/
def resolveNamed (r : Registry) (key : Json) : Except Failure Generator :=
  if r.generators.isEmpty then throw (.registry .empty)
  else if key.isNull then r.resolve none
  else do
    let f ← Framework.parse key
    r.resolve (some f)

def supports (r : Registry) (key : Json) : Bool :=
  match Framework.parse key with
  | .ok f => r.has f
  | .error _ => false

/-- What is told about a generator. -/
structure Info where
  framework : Framework
  title : String
  place : String
  active : Bool
  mainFile : String
  helpers : List String

def sampleName : String := "Example"

def info (r : Registry) (g : Generator) : Info where
  framework := g.framework
  title := g.title
  place := g.place
  active := r.active == some g.framework
  mainFile := (g.target.fileNames sampleName {}).main
  helpers := (g.target.helpers.map (·.1)).mergeSort

def infoNamed (r : Registry) (key : Json) : Except Failure Info := do
  let g ← r.getNamed key
  return r.info g

/-- The settings for all generators of a registry: one value for each, or layers over the defaults
of its framework. -/
inductive Settings where
  | fixed (config : Config)
  | layers (given : Json)

/-- The settings of one framework. A text is the path of a file. -/
def settingsFor (folder : Folder) (s : Settings) (f : Framework) : Except Failure Config :=
  match s with
  | .fixed config => .ok config
  | .layers (.str path) => Config.load folder f.key .null path
  | .layers (.obj fields) => Config.load folder f.key (.obj fields) ""
  | .layers .null => Config.load folder f.key .null ""
  | .layers v => throw (.registry (.configKind v.kind))

def addFramework (folder : Folder) (s : Settings) (r : Registry) (f : Framework) :
    Except Failure Registry := do
  let config ← settingsFor folder s f
  (r.register (Generator.ofFramework f config) false).toExcept

/-- The frameworks in a value, all where there is none. -/
def selected (frameworks : Json) : Except Failure (List Framework) :=
  if frameworks.isNull then .ok Framework.all
  else do
    let keys ← frameworks.elements
    keys.mapM fun key => Framework.parse key

/-- A registry of generators, with the shared helpers. -/
def create (folder : Folder) (frameworks : Json) (s : Settings) (active : Json) :
    Except Failure Registry := do
  let fs ← selected frameworks
  let r ← fs.foldlM (addFramework folder s) { store := Template.Store.withShared }
  if active.isNull then return r else r.activate active

def builtIn : Except Failure Registry := create {} .null (.layers .null) .null

end Registry

end ViewWriter
