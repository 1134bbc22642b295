import ViewWriter.Attempt
import ViewWriter.Template.Helper
import ViewWriter.Text.Quoted

/-!
Templates by generator and kind, and helpers by name. A store is filled first and then frozen.
-/

namespace ViewWriter.Template

open ViewWriter.Text

def artifactKinds : List String := ["component", "page", "styles", "index"]

inductive StoreError where
  | notFound (generator kind : String)
  | frozen
  | wrongKinds (generator : String) (missing unexpected : List String)
  | unknownKind (kind : String)
  | notText (generator kind : String)
  | notCallable (name : String)
  | badName (name : String)
deriving DecidableEq, Repr

namespace StoreError

def listOrNone (xs : List String) : String := if xs.isEmpty then "none" else quotedList xs

def message : StoreError → String
  | notFound generator kind =>
    "No '" ++ kind ++ "' template registered for generator '" ++ generator ++ "'"
  | frozen => "Template store is frozen; register templates before rendering"
  | wrongKinds generator missing unexpected =>
    "Generator '" ++ generator ++ "' must provide exactly the templates " ++ join ", " artifactKinds
      ++ " (missing: " ++ listOrNone missing ++ ", unexpected: " ++ listOrNone unexpected ++ ")"
  | unknownKind kind => "Unknown artifact kind: " ++ kind
  | notText generator kind => "Template '" ++ generator ++ "." ++ kind ++ "' must be a string"
  | notCallable name => "Helper '" ++ name ++ "' is not callable"
  | badName name => "Invalid helper name: " ++ quoted name

end StoreError

/-- What is offered as a helper: a function, or a value that cannot be called. -/
inductive Candidate where
  | function (f : Helper)
  | value (v : Json)

structure Store where
  templates : Table (Table String) := []
  shared : Table Helper := []
  own : Table (Table Helper) := []
  frozen : Bool := false

namespace Store

def freeze (s : Store) : Store := { s with frozen := true }

def find? (s : Store) (generator kind : String) : Option String :=
  ((s.templates.get? generator).getD []).get? kind

def has (s : Store) (generator kind : String) : Bool := (s.find? generator kind).isSome

def template (s : Store) (generator kind : String) : Except StoreError String :=
  match s.find? generator kind with
  | some source => .ok source
  | none => .error (.notFound generator kind)

def putTemplate (s : Store) (generator kind : String) (source : Json) : Except StoreError Store :=
  if s.frozen then .error .frozen
  else if !artifactKinds.contains kind then .error (.unknownKind kind)
  else match source with
    | .str text =>
      let known := (s.templates.get? generator).getD []
      .ok { s with templates := s.templates.set generator (known.set kind text) }
    | _ => .error (.notText generator kind)

def putTemplates (s : Store) (generator : String) (templates : Table Json) :
    Attempt Store StoreError :=
  if s.frozen then ⟨s, some .frozen⟩
  else
    let missing := artifactKinds.filter fun kind => !templates.has kind
    let unexpected := (templates.keys.filter fun kind => !artifactKinds.contains kind).mergeSort
    if missing.isEmpty && unexpected.isEmpty then
      Attempt.each (fun s kind => s.putTemplate generator kind (Json.member templates kind)) s
        artifactKinds
    else ⟨s, some (.wrongKinds generator missing unexpected)⟩

/-- Adds a helper for all generators or for one of them. -/
def putHelper (s : Store) (name : String) (helper : Candidate) (generator : Option String) :
    Except StoreError Store :=
  if s.frozen then .error .frozen
  else match helper with
    | .value _ => .error (.notCallable name)
    | .function f =>
      if !isName name.toList then .error (.badName name)
      else match generator with
        | none => .ok { s with shared := s.shared.set name f }
        | some g => .ok { s with own := s.own.set g (((s.own.get? g).getD []).set name f) }

def putHelpers (s : Store) (helpers : List (String × Candidate)) (generator : Option String) :
    Attempt Store StoreError :=
  Attempt.each (fun s h => s.putHelper h.1 h.2 generator) s helpers

/-- The shared helpers, with those of the generator over them. -/
def helpersFor (s : Store) : Option String → Table Helper
  | none => s.shared
  | some g => s.shared.merge ((s.own.get? g).getD [])

def generators (s : Store) : List String := s.templates.keys.mergeSort

def withShared : Store := { shared := Helper.shared }

end Store

end ViewWriter.Template
