import ViewWriter.Fault
import ViewWriter.Name.Fresh
import ViewWriter.Name.Identifier

/-!
Names made safe for generated code, and kept apart from each other on request.
-/

namespace ViewWriter.Name

open ViewWriter.Text

structure Sanitizer where
  reserved : List String
  protectedNames : List String
  used : List String

/-- What is asked of one name. -/
structure Request where
  name : String
  case : NameCase := .camel
  /-- what follows a name that is reserved or protected -/
  suffix : String := "_"
  /-- the name must differ from those given out before on such requests -/
  unique : Bool := false
  /-- the name used where no word is left -/
  fallback : String := "value"

namespace Sanitizer

/-- The sanitizer of script names. -/
def script : Sanitizer := ⟨reservedWords, Name.protectedNames, []⟩

def isKept (s : Sanitizer) (name : String) : Bool :=
  s.reserved.contains (lower name) || s.protectedNames.contains (lower name)

/-- The name before it is compared with others. -/
def natural (s : Sanitizer) (r : Request) : Except Fault String :=
  let spelled := orDefault (spell r.case r.name) r.fallback
  match spelled.toList with
  | [] => .error .place
  | c :: _ =>
    let joiner := if r.case == .kebab then "-" else "_"
    let led := if isDigit c then r.fallback ++ joiner ++ spelled else spelled
    .ok (if s.isKept led then led ++ r.suffix else led)

def sanitize (s : Sanitizer) (r : Request) : Except Fault (String × Sanitizer) := do
  let name ← s.natural r
  if r.unique then
    let free := fresh s.used name fun n => name ++ toString n
    return (free, { s with used := free :: s.used })
  else return (name, s)

/-- The name of a state variable, property or function: never empty and never refused. -/
def variableName (name : String) : String :=
  match script.natural ⟨name, .camel, "_", false, "value"⟩ with
  | .ok n => n
  | .error _ => "value"

end Sanitizer

end ViewWriter.Name
