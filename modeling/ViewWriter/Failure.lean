import ViewWriter.Analysis.Basic
import ViewWriter.Config.Layers
import ViewWriter.Options
import ViewWriter.Script.Loading
import ViewWriter.Template.Engine

/-!
All that can go wrong on the way from settings and documents to files.
-/

namespace ViewWriter

open ViewWriter.Text

inductive RegistryError where
  | empty
  | notGenerator
  | notActivated (framework : Framework)
  | notRegistered (framework : Framework) (available : List Framework)
  | otherActive (framework : Framework)
  | configKind (kind : String)
deriving DecidableEq, Repr

def RegistryError.message : RegistryError → String
  | empty => "No code generator has been registered"
  | notGenerator => "Generator must inherit from CodeGenerator"
  | notActivated f => "No generator registered for framework: " ++ f.key
  | notRegistered f available =>
    "No generator registered for framework: " ++ f.key ++ ". Available: "
      ++ (if available.isEmpty then "none" else join ", " (available.map (·.key)))
  | otherActive f => "Active generator already set to '" ++ f.key ++ "'"
  | configKind kind => "Invalid config type: <class '" ++ kind ++ "'>"

inductive BundleError where
  | empty
  | taken (path : String)
  | scaffold (path : String)
  | unwritable (path : String) (p : FileProblem)
  | unwritableArchive (path : String) (p : FileProblem)
deriving DecidableEq, Repr

def BundleError.message : BundleError → String
  | empty => "Bundle is empty"
  | taken path => "Bundle path already holds different content: " ++ path
  | scaffold path => "Generated file collides with scaffold file: " ++ path
  | unwritable path p => "Failed to write bundle to " ++ path ++ ": " ++ p.message
  | unwritableArchive path p => "Failed to write bundle archive " ++ path ++ ": " ++ p.message

inductive LoadError where
  | notFound (path : String)
  | invalid (path : String) (e : Json.ReadError)
  | unreadable (path : String) (p : FileProblem)
  | badAddress (url : String)
  | timeout (url : String)
  | noConnection (url : String)
  | status (url : String) (code : Option Int)
  | request (url reason : String)
  | notJson (url reason : String)
  | notSchema (source kind : String)
  | noSections
deriving DecidableEq

def LoadError.message : LoadError → String
  | notFound path => "File not found: " ++ path
  | invalid path e => "Invalid JSON in file " ++ path ++ ": " ++ e.message
  | unreadable path p => "Error reading file " ++ path ++ ": " ++ p.message
  | badAddress url => "Invalid schema URL: " ++ url
  | timeout url => "Request timeout for URL: " ++ url
  | noConnection url => "Connection error for URL: " ++ url
  | status url code =>
    "HTTP error " ++ (match code with
      | some n => toString n
      | none => "?") ++ " for URL: " ++ url
  | request url reason => "Request error for URL " ++ url ++ ": " ++ reason
  | notJson url reason => "Response from " ++ url ++ " is not JSON: " ++ reason
  | notSchema source kind =>
    source ++ " must hold a schema object or a list of schema objects, got " ++ kind
  | noSections => "No page sections found"

inductive Failure where
  | framework (e : UnknownFramework)
  | registry (e : RegistryError)
  | store (e : Template.StoreError)
  | schema (e : SchemaError)
  | config (e : ConfigError)
  | bundle (e : BundleError)
  | load (e : LoadError)
  | weight (e : Script.BadWeight)
  | fault (f : Fault)
deriving DecidableEq

namespace Failure

/-- The text of a failure; a fault has none. -/
def message? : Failure → Option String
  | framework e => some e.message
  | registry e => some e.message
  | store e => some e.message
  | schema (.noSibling _) => none
  | schema e => some e.message
  | config e => some e.message
  | bundle e => some e.message
  | load e => some e.message
  | weight e => some e.message
  | fault _ => none

def ofAnalysis : AnalysisError → Failure
  | .schema e => schema e
  | .fault f => fault f

def ofRender : Template.RenderError → Failure
  | .store e => store e
  | .fault f => fault f

def ofLoadConfig : LoadConfigError → Failure
  | .config e => config e
  | .fault f => fault f

def ofOptions : OptionsError → Failure
  | .notObject => fault .member
  | .framework e => framework e

instance : MonadLift (Except UnknownFramework) (Except Failure) := ⟨Except.mapError framework⟩
instance : MonadLift (Except RegistryError) (Except Failure) := ⟨Except.mapError registry⟩
instance : MonadLift (Except Template.StoreError) (Except Failure) := ⟨Except.mapError store⟩
instance : MonadLift (Except SchemaError) (Except Failure) := ⟨Except.mapError schema⟩
instance : MonadLift (Except ConfigError) (Except Failure) := ⟨Except.mapError config⟩
instance : MonadLift (Except BundleError) (Except Failure) := ⟨Except.mapError bundle⟩
instance : MonadLift (Except LoadError) (Except Failure) := ⟨Except.mapError load⟩
instance : MonadLift (Except Script.BadWeight) (Except Failure) := ⟨Except.mapError weight⟩
instance : MonadLift (Except Fault) (Except Failure) := ⟨Except.mapError fault⟩
instance : MonadLift (Except AnalysisError) (Except Failure) := ⟨Except.mapError ofAnalysis⟩
instance : MonadLift (Except Template.RenderError) (Except Failure) := ⟨Except.mapError ofRender⟩
instance : MonadLift (Except LoadConfigError) (Except Failure) := ⟨Except.mapError ofLoadConfig⟩
instance : MonadLift (Except OptionsError) (Except Failure) := ⟨Except.mapError ofOptions⟩

end Failure

end ViewWriter
