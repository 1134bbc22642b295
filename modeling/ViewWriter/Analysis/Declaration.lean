import ViewWriter.Config.Basic
import ViewWriter.Json.Printer
import ViewWriter.Name.Sanitizer
import ViewWriter.Schema.Tree

/-!
What the nodes of a tree declare: state, effects, properties, functions and imports. Of several
declarations of one name the first counts.
-/

namespace ViewWriter.Analysis

open ViewWriter.Text ViewWriter.Schema

structure StateVariable where
  name : String
  initial : Json
  type : Json

structure Effect where
  body : String
  /-- null where nothing is to be cleaned up -/
  cleanup : Json
  deps : List String

structure Property where
  name : String
  type : Json
  optional : Bool
  default : Option Json

structure Function where
  name : String
  params : List String
  body : String

structure Import where
  name : String
  source : String
  weight : Binary64

/-- A value as script source. -/
def literal (v : Json) : String := v.compact .unicode

/-- The type of a value in typed scripts. -/
def inferType : Json → String
  | .bool _ => "boolean"
  | .int _ | .float _ => "number"
  | .str _ => "string"
  | .arr _ => "unknown[]"
  | .obj _ => "Record<string, unknown>"
  | .null => "unknown"

/-- Declarations given by name, or as a list of objects of which the others are ignored. -/
def entries (value : Json) (keyName valueName : String) : List (Table Json) :=
  match value with
  | .obj fields => fields.map fun e => Table.ofEntries [(keyName, .str e.1), (valueName, e.2)]
  | .arr items => items.filterMap Json.fields?
  | _ => []

/-- The entries of all nodes under one key. -/
def declared (records : List Record) (key keyName valueName : String) : List (Table Json) :=
  records.flatMap fun r => entries (Json.member r.props key) keyName valueName

/-- The text of a member that counts as given. -/
def givenText? (entry : Table Json) (key : String) : Option String :=
  let v := Json.member entry key
  if v.isGiven then some v.display else none

/-- Keeps the first of those that have the same name. -/
def firstByName {α : Type} (name : α → String) (xs : List α) : List α :=
  go [] xs
where
  go (seen : List String) : List α → List α
    | [] => []
    | x :: rest => if seen.contains (name x) then go seen rest else x :: go (name x :: seen) rest

def StateVariable.ofEntry? (entry : Table Json) : Option StateVariable :=
  (givenText? entry "name").map fun name =>
    let initial := Json.member entry "initial"
    ⟨Name.Sanitizer.variableName name, initial,
      (Json.member entry "type").orElse (.str (inferType initial))⟩

def stateVariables (records : List Record) : List StateVariable :=
  firstByName (·.name) ((declared records "state" "name" "initial").filterMap StateVariable.ofEntry?)

/-- Texts of the elements of a value; what does not count as given has none. -/
def texts (v : Json) : Except Fault (List String) := do
  let items ← (v.orElse (.arr [])).elements
  return items.map Json.display

def textMember (entry : Table Json) (key : String) : String :=
  ((Json.member entry key).orElse (.str "")).display

def Effect.ofEntry (entry : Table Json) : Except Fault Effect := do
  let deps ← texts (Json.member entry "deps")
  return ⟨textMember entry "body", (Json.member entry "cleanup").orElse .null, deps⟩

/-- An effect given as an object or by its body. -/
def Effect.ofJson? (v : Json) : Except Fault (Option Effect) :=
  match v with
  | .str body => .ok (some ⟨body, .null, []⟩)
  | .obj fields => (Effect.ofEntry fields).map some
  | _ => .ok none

/-- A single effect stands for a list of one. -/
def effectItems (v : Json) : Except Fault (List Json) :=
  match v.orElse (.arr []) with
  | .str s => .ok [.str s]
  | .obj fields => .ok [.obj fields]
  | other => other.elements

def effectsOf (r : Record) : Except Fault (List Effect) := do
  let items ← effectItems (Json.member r.props "effects")
  let found ← items.mapM Effect.ofJson?
  return found.filterMap id

def effects (records : List Record) : Except Fault (List Effect) := do
  let parts ← records.mapM effectsOf
  return parts.flatten

def Property.ofEntry? (entry : Table Json) : Option Property :=
  (givenText? entry "name").map fun name =>
    let default := entry.get? "default"
    let inferred := match default with
      | some v => inferType v
      | none => "unknown"
    ⟨Name.Sanitizer.variableName name, (Json.member entry "type").orElse (.str inferred),
      (Json.member entry "optional").isGiven || default.isSome, default⟩

def properties (records : List Record) : List Property :=
  firstByName (·.name) ((declared records "propDefs" "name" "type").filterMap Property.ofEntry?)

/-- The functions of entries, in order; `seen` holds the names that are taken. -/
def functionsOf (seen : List String) : List (Table Json) → Except Fault (List Function)
  | [] => .ok []
  | entry :: rest =>
    match givenText? entry "name" with
    | none => functionsOf seen rest
    | some given =>
      let name := Name.Sanitizer.variableName given
      if seen.contains name then functionsOf seen rest
      else do
        let params ← texts (Json.member entry "params")
        let others ← functionsOf (name :: seen) rest
        return ⟨name, params, textMember entry "body"⟩ :: others

def functions (records : List Record) : Except Fault (List Function) :=
  functionsOf [] (declared records "functions" "name" "body")

/-- The weight that a value gives an import; what is no number counts as one. -/
def weightOf (v : Json) : Except Fault Binary64 :=
  match v, v.toReal with
  | .bool _, _ => .ok .one
  | _, .error .range => .error .range
  | _, .error _ => .ok .one
  | _, .ok x => .ok x

/-- The imports that entries declare, in order, under names that can be bound. -/
def declaredImportsOf (seen : List String) : List (Table Json) → Except Fault (List Import)
  | [] => .ok []
  | entry :: rest =>
    match givenText? entry "name", givenText? entry "source" with
    | some name, some source =>
      if !Name.isBinding name || seen.contains name then declaredImportsOf seen rest
      else do
        let weight ← weightOf ((entry.get? "weight").getD (.float .one))
        let others ← declaredImportsOf (name :: seen) rest
        return ⟨name, source, weight⟩ :: others
    | _, _ => declaredImportsOf seen rest

def declaredImports (records : List Record) : Except Fault (List Import) :=
  declaredImportsOf [] (declared records "imports" "name" "source")

/-- The number of sections that hold a custom node of a type. -/
def usage (sections : List (List Record)) (type : String) : Nat :=
  sections.countP fun records => records.any fun r => r.isCustom && r.type == type

/-- The share of sections that use a type, to four places. -/
def share (sections : List (List Record)) (type : String) : Binary64 :=
  (Binary64.ofQuotient false (usage sections type) (max sections.length 1)).roundPlaces 4

/-- An import for every custom component that is not declared. -/
def implicitImports (sections : List (List Record)) (seen : List String) :
    List Record → List Import
  | [] => []
  | r :: rest =>
    let name := Name.component r.type Name.defaultComponent
    if !r.isCustom || seen.contains name then implicitImports sections seen rest
    else ⟨name, "./" ++ name, share sections r.type⟩ :: implicitImports sections (name :: seen) rest

def imports (records : List Record) (sections : List (List Record)) : Except Fault (List Import) := do
  let given ← declaredImports records
  return given ++ implicitImports sections (given.map (·.name)) records

end ViewWriter.Analysis
