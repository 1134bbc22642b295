import ViewWriter.Config.Basic
import ViewWriter.Folder
import ViewWriter.Json.Printer
import ViewWriter.Json.Reader
import ViewWriter.Text.Case

/-!
Settings in layers: the defaults of a framework, a file over them and overrides over both. A name
that is no setting is a custom setting.
-/

namespace ViewWriter

/-- What goes wrong when settings are loaded or saved. -/
inductive ConfigError where
  | notFound (path : String)
  | notJson (path : String)
  | invalid (path : String) (e : Json.ReadError)
  | unreadable (path : String) (p : FileProblem)
  | notObject (path : String)
  | unwritable (path : String) (p : FileProblem)
deriving DecidableEq

def ConfigError.message : ConfigError → String
  | notFound path => "Configuration file not found: " ++ path
  | notJson path => "Configuration file must be JSON: " ++ path
  | invalid path e => "Invalid JSON in configuration file " ++ path ++ ": " ++ e.message
  | unreadable path p => "Failed to load configuration file " ++ path ++ ": " ++ p.message
  | notObject path => "Configuration file must contain a JSON object: " ++ path
  | unwritable path p => "Failed to save configuration to " ++ path ++ ": " ++ p.message

inductive LoadConfigError where
  | config (e : ConfigError)
  | fault (f : Fault)
deriving DecidableEq

namespace Config

def settingNames : List String := [
  "indent_size", "add_comments", "default_component_name", "class_prefix", "css_unit",
  "eager_threshold", "dedupe_min_lines", "preserve_imports", "custom"]

def frameworkDefaults (framework : String) : Table Json :=
  match framework with
  | "react" => [("indent_size", .int 2), ("preserve_imports", .arr [.str "React"])]
  | "vue" => [("indent_size", .int 2), ("preserve_imports", .arr [])]
  | "angular" => [("indent_size", .int 2), ("preserve_imports", .arr []),
      ("custom", .obj [("selector_prefix", .str "app")])]
  | "html" => [("indent_size", .int 2), ("preserve_imports", .arr []),
      ("custom", .obj [("lang", .str "en")])]
  | _ => []

/-- Writes one setting over a layer; custom settings are written one by one. -/
def override (base : Table Json) (key : String) (value : Json) : Except Fault (Table Json) :=
  match key == "custom", value with
  | true, .obj upper =>
    match (base.get? "custom").getD (.obj []) with
    | .obj lower => .ok (base.set "custom" (.obj (Table.merge lower upper)))
    | _ => .error .member
  | _, _ => .ok (base.set key value)

def overrideAll (base : Table Json) (upper : List (String × Json)) : Except Fault (Table Json) :=
  upper.foldlM (fun t e => override t e.1 e.2) base

def ofFields (fields : Table Json) : Except Fault Config := do
  let unknown : Table Json := fields.filter fun e => !settingNames.contains e.1
  let get (key : String) (default : Json) : Json := (fields.get? key).getD default
  let given := get "custom" (.obj [])
  let custom ← if unknown.isEmpty then pure given
    else do
      let known ← given.table
      pure (.obj (Table.merge known unknown))
  let d : Config := {}
  return {
    indentSize := get "indent_size" d.indentSize
    addComments := get "add_comments" d.addComments
    defaultName := get "default_component_name" d.defaultName
    classPrefix := get "class_prefix" d.classPrefix
    cssUnit := get "css_unit" d.cssUnit
    eagerThreshold := get "eager_threshold" d.eagerThreshold
    dedupeMinLines := get "dedupe_min_lines" d.dedupeMinLines
    preserveImports := get "preserve_imports" d.preserveImports
    custom }

def toFields (c : Config) : Table Json := [
  ("indent_size", c.indentSize), ("add_comments", c.addComments),
  ("default_component_name", c.defaultName), ("class_prefix", c.classPrefix),
  ("css_unit", c.cssUnit), ("eager_threshold", c.eagerThreshold),
  ("dedupe_min_lines", c.dedupeMinLines), ("preserve_imports", c.preserveImports),
  ("custom", c.custom)]

/-- The settings of a framework: its defaults, then a file, then overrides that count as given. -/
def layered (framework : String) (file : Table Json) (overrides : Json) : Except Fault Config := do
  let base ← overrideAll (frameworkDefaults framework) file
  let base ← if overrides.isGiven then
      match overrides with
      | .obj upper => overrideAll base upper
      | _ => throw .member
    else pure base
  ofFields base

def readFile (folder : Folder) (path : String) : Except LoadConfigError (Table Json) :=
  let shown := Path.clean path
  if !folder.has path then .error (.config (.notFound shown))
  else if Text.lower (Path.suffix path) != ".json" then .error (.config (.notJson shown))
  else match folder.read path with
    | .error p => .error (.config (.unreadable shown p))
    | .ok text => match Json.read text with
      | .error e =>
        if e.isNotation then .error (.config (.invalid shown e)) else .error (.fault .content)
      | .ok (.obj fields) => .ok fields
      | .ok _ => .error (.config (.notObject shown))

/-- The settings of a framework, with a file and overrides where they are given. -/
def load (folder : Folder) (framework : String) (overrides : Json) (file : String) :
    Except LoadConfigError Config := do
  let fields ← if file == "" then pure [] else readFile folder file
  (layered framework fields overrides).mapError .fault

def save (c : Config) (folder : Folder) (path : String) : Except ConfigError Folder :=
  (folder.write path (Json.indented "" (.obj c.toFields))).mapError
    (.unwritable (Path.clean path))

def belowNumber (v : Json) (n : Number) : Except Fault Bool :=
  match v.number? with
  | some x => .ok (x.lt n)
  | none => .error .kind

def aboveNumber (v : Json) (n : Number) : Except Fault Bool :=
  match v.number? with
  | some x => .ok (n.lt x)
  | none => .error .kind

def isUnitInterval (v : Json) : Except Fault Bool :=
  match v.number? with
  | some x => .ok ((Number.int 0).le x && x.le (.int 1))
  | none => .error .kind

/-- Letters and digits, with hyphens between them. -/
def isClassPrefix (s : String) : Bool :=
  let cs := s.toList.filter (· != '-')
  !cs.isEmpty && cs.all Text.isAlphanumeric

/-- Small letters only. -/
def isSelectorPrefix (s : String) : Bool :=
  s != "" && s.toList.all Text.isLetter && Text.lower s == s

def warnIf (condition : Bool) (text : String) : List String := if condition then [text] else []

def classPrefixWarnings (c : Config) : Except Fault (List String) :=
  if !c.classPrefix.isGiven then .ok []
  else match c.classPrefix with
    | .str s => .ok (warnIf (!isClassPrefix s) ("Invalid class_prefix: " ++ s))
    | _ => .error .member

def selectorWarnings (c : Config) (framework : String) : Except Fault (List String) :=
  if framework == "angular" then
    (c.customMember "selector_prefix" (.str "app")).map fun v =>
      warnIf (!isSelectorPrefix v.display) ("Invalid Angular selector prefix: " ++ v.display)
  else .ok []

def warnings (c : Config) (framework : String) : Except Fault (List String) := do
  let low ← belowNumber c.indentSize (.int 0)
  let high ← aboveNumber c.indentSize (.int 8)
  let threshold ← isUnitInterval c.eagerThreshold
  let few ← belowNumber c.dedupeMinLines (.int 2)
  let classes ← c.classPrefixWarnings
  let selectors ← c.selectorWarnings framework
  return warnIf (low || high) ("Unusual indent_size: " ++ c.indentSize.display)
    ++ warnIf (!threshold) ("eager_threshold must be within [0, 1]: " ++ c.eagerThreshold.display)
    ++ warnIf few ("dedupe_min_lines below 2 factors trivial fragments: "
      ++ c.dedupeMinLines.display)
    ++ classes ++ selectors

end Config

end ViewWriter
