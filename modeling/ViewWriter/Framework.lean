import ViewWriter.Json.Printer
import ViewWriter.Text.Case
import ViewWriter.Text.Split

/-!
The frameworks that code is generated for, and the keys that name them.
-/

namespace ViewWriter

inductive Framework where
  | react
  | vue
  | angular
  | html
deriving DecidableEq, Repr

/-- The key of no framework. -/
structure UnknownFramework where
  key : String
deriving DecidableEq, Repr

namespace Framework

def key : Framework → String
  | react => "react"
  | vue => "vue"
  | angular => "angular"
  | html => "html"

def title : Framework → String
  | react => "React"
  | vue => "Vue"
  | angular => "Angular"
  | html => "Html"

def all : List Framework := [react, vue, angular, html]

def aliases : List (String × Framework) := [
  ("reactjs", react), ("jsx", react), ("vue3", vue), ("vuejs", vue), ("ng", angular),
  ("vanilla", html), ("static", html)]

def ofKey? (key : String) : Option Framework :=
  match aliases.lookup key with
  | some f => some f
  | none => all.find? fun f => f.key == key

/-- The framework that a value names; white space around the name and its case do not count. -/
def parse (v : Json) : Except UnknownFramework Framework :=
  match ofKey? (Text.lower (Text.trimmed v.display)) with
  | some f => .ok f
  | none => .error ⟨v.display⟩

end Framework

def UnknownFramework.message (e : UnknownFramework) : String :=
  "Unknown framework: " ++ e.key ++ ". Available: " ++ Text.join ", " (Framework.all.map (·.key))

end ViewWriter
