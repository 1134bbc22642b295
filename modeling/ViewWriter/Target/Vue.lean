import ViewWriter.Target.View
import ViewWriter.Template.Source

/-!
Single-file components with a setup script. State becomes references and effects become watchers or
lifecycle hooks.
-/

namespace ViewWriter.Target.Vue

open ViewWriter.Template ViewWriter.Template.Source

def scriptLines : List String := [
  "<script setup" ++ openIf "typescript" ++ " lang=\"ts\"" ++ closeIf ++ ">",
  openIf "hasVueImports",
  "import \x7b " ++ mark "join vueImports \", \"" ++ " \x7d from 'vue';",
  closeIf,
  openEach "imports",
  "import " ++ mark "item.name" ++ " from '" ++ mark "item.source" ++ "';",
  closeEach,
  openIf "description",
  "",
  mark "comment description",
  closeIf,
  openIf "hasProps",
  "",
  "const props = defineProps(\x7b",
  openEach "props",
  "  " ++ mark "item.name" ++ ": " ++ mark "item.runtime" ++ ",",
  closeEach,
  "\x7d);",
  closeIf,
  openIf "pageTitle",
  "",
  "document.title = " ++ mark "json pageTitle" ++ ";",
  closeIf,
  openEach "state",
  "",
  "const " ++ mark "item.name" ++ " = ref" ++ openIf "typescript" ++ "<" ++ mark "item.type" ++ ">"
    ++ closeIf ++ "(" ++ mark "item.initialValue" ++ ");",
  "const " ++ mark "item.setter" ++ " = (value" ++ openIf "typescript" ++ ": " ++ mark "item.type"
    ++ closeIf ++ ") => \x7b",
  "  " ++ mark "item.name" ++ ".value = value;",
  "\x7d;",
  closeEach,
  openEach "functions",
  "",
  "const " ++ mark "item.name" ++ " = (" ++ mark "item.paramList" ++ ") => \x7b",
  mark "indent item.body 2",
  "\x7d;",
  closeEach,
  openEach "effects",
  "",
  openIf "item.deps",
  "watch([" ++ mark "item.depsList" ++ "], (_value, _previous, onCleanup) => \x7b",
  mark "indent item.body 2",
  openIf "item.hasCleanup",
  "  onCleanup(() => \x7b",
  mark "indent item.cleanup 4",
  "  \x7d);",
  closeIf,
  "\x7d, \x7b immediate: true \x7d);",
  otherwise,
  "onMounted(() => \x7b",
  mark "indent item.body 2",
  "\x7d);",
  openIf "item.hasCleanup",
  "",
  "onUnmounted(() => \x7b",
  mark "indent item.cleanup 2",
  "\x7d);",
  closeIf,
  closeIf,
  closeEach,
  "</script>",
  openIf "hasStyles",
  "",
  "<style" ++ openIf "isModule" ++ " module" ++ otherwise ++ " scoped" ++ closeIf ++ " src=\"./"
    ++ mark "styleFile" ++ "\"></style>",
  closeIf]

def componentLines : List String := [
  "<template>",
  mark "indent markup 2",
  "</template>",
  ""] ++ scriptLines

def indexLines : List String := [
  "export \x7b default \x7d from './" ++ mark "fileName" ++ "';",
  "export \x7b default as " ++ mark "componentName" ++ " \x7d from './" ++ mark "fileName" ++ "';"]

def templates : Table Json := [
  ("component", .str (ofLines componentLines)), ("page", .str (ofLines componentLines)),
  ("styles", .str (ofLines stylesheet)), ("index", .str (ofLines indexLines))]

def fileNames (name : String) (options : Options) : FileNames where
  main := name ++ ".vue"
  styles := FileNames.stylesheet name options.isModule.isGiven
  index := "index." ++ FileNames.scriptExtension options.typescript.isGiven

def hasDeps (e : Analysis.Effect) : Bool := !e.deps.isEmpty

def primitives (v : View) : List String :=
  let effects := v.parts.effects
  (if v.parts.state.isEmpty then [] else ["ref"])
    ++ (if effects.any (!hasDeps ·) then ["onMounted"] else [])
    ++ (if effects.any (fun e => !hasDeps e && e.hasCleanup) then ["onUnmounted"] else [])
    ++ (if effects.any hasDeps then ["watch"] else [])

/-- Constructors that check properties when the program runs. -/
def runtimeTypes : List (String × String) := [
  ("string", "String"), ("number", "Number"), ("boolean", "Boolean"), ("unknown[]", "Array"),
  ("Record<string, unknown>", "Object")]

def runtimeType (type : Json) : Except Fault String :=
  match type with
  | .str s => .ok ((runtimeTypes.lookup s).getD "null")
  | .arr _ | .obj _ => .error .kind
  | _ => .ok "null"

/-- A default that is a list or an object comes from a function. -/
def runtimeDefault (v : Json) : String :=
  match v with
  | .arr _ | .obj _ => "() => (" ++ Analysis.literal v ++ ")"
  | _ => Analysis.literal v

/-- The declaration of a property. -/
def runtime (p : Analysis.Property) : Except Fault String := do
  let type ← runtimeType p.type
  let more := match p.default with
    | some v => [", default: " ++ runtimeDefault v]
    | none => if p.optional then [] else [", required: true"]
  return "\x7b type: " ++ type ++ Text.concat more ++ " \x7d"

def additions (_ : Config) (v : View) : Except Fault (Table Json) := do
  let props ← v.parts.props.mapM fun p => do
    let text ← runtime p
    return p.toFields ++ [("runtime", .str text)]
  return [
    ("vueImports", .ofStrings (primitives v)),
    ("hasVueImports", .bool (!(primitives v).isEmpty)),
    ("props", Analysis.objects props)]

def target : Target where
  framework := .vue
  templates := templates
  helpers := []
  dialect _ options := .ok (.vue options.isModule.isGiven)
  fileNames := fileNames
  additions := additions

end ViewWriter.Target.Vue
