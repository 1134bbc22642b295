import ViewWriter.Target.View
import ViewWriter.Template.Source

/-!
Function components with hooks.
-/

namespace ViewWriter.Target.React

open ViewWriter.Template ViewWriter.Template.Source

def importLines : List String := [
  openIf "hasHooks",
  "import \x7b " ++ mark "join hooks \", \"" ++ " \x7d from 'react';",
  closeIf,
  openEach "imports",
  "import " ++ mark "item.name" ++ " from '" ++ mark "item.source" ++ "';",
  closeEach,
  openIf "hasStyles",
  openIf "isModule",
  "import styles from './" ++ mark "styleFile" ++ "';",
  otherwise,
  "import './" ++ mark "styleFile" ++ "';",
  closeIf,
  closeIf]

def bodyLines : List String := [
  openEach "state",
  "  const [" ++ mark "item.name" ++ ", " ++ mark "item.setter" ++ "] = useState"
    ++ openIf "typescript" ++ "<" ++ mark "item.type" ++ ">" ++ closeIf
    ++ "(" ++ mark "item.initialValue" ++ ");",
  closeEach,
  openEach "effects",
  openIf "item.gap",
  "",
  closeIf,
  "  useEffect(() => \x7b",
  mark "indent item.body 4",
  openIf "item.hasCleanup",
  "    return () => \x7b",
  mark "indent item.cleanup 6",
  "    \x7d;",
  closeIf,
  "  \x7d, [" ++ mark "item.depsList" ++ "]);",
  closeEach,
  openEach "functions",
  openIf "item.gap",
  "",
  closeIf,
  "  const " ++ mark "item.name" ++ " = (" ++ mark "item.paramList" ++ ") => \x7b",
  mark "indent item.body 4",
  "  \x7d;",
  closeEach,
  openIf "hasBody",
  "",
  closeIf,
  "  return (",
  mark "indent jsxContent 4",
  "  );",
  "\x7d"]

def componentLines : List String := importLines ++ [
  "",
  openIf "typescript",
  openIf "hasProps",
  "export interface " ++ mark "componentName" ++ "Props \x7b",
  openEach "props",
  "  " ++ mark "item.name" ++ openIf "item.optional" ++ "?" ++ closeIf ++ ": " ++ mark "item.type"
    ++ ";",
  closeEach,
  "\x7d",
  "",
  closeIf,
  closeIf,
  mark "docComment description",
  "export default function " ++ mark "componentName" ++ "(" ++ mark "propsSignature" ++ ") \x7b"]
  ++ bodyLines

def pageLines : List String := importLines ++ [
  "",
  mark "docComment description",
  "export default function " ++ mark "pageName" ++ "() \x7b",
  openIf "pageTitle",
  "  useEffect(() => \x7b",
  "    document.title = " ++ mark "json pageTitle" ++ ";",
  "  \x7d, []);",
  "",
  closeIf]
  ++ bodyLines

def indexLines : List String := [
  "export \x7b default \x7d from './" ++ mark "moduleName" ++ "';",
  "export \x7b default as " ++ mark "componentName" ++ " \x7d from './" ++ mark "moduleName" ++ "';",
  openIf "typescript",
  openIf "hasProps",
  "export type \x7b " ++ mark "componentName" ++ "Props \x7d from './" ++ mark "moduleName" ++ "';",
  closeIf,
  closeIf]

def templates : Table Json := [
  ("component", .str (ofLines componentLines)), ("page", .str (ofLines pageLines)),
  ("styles", .str (ofLines stylesheet)), ("index", .str (ofLines indexLines))]

def fileNames (name : String) (options : Options) : FileNames where
  main := name ++ (if options.typescript.isGiven then ".tsx" else ".jsx")
  styles := FileNames.stylesheet name options.isModule.isGiven
  index := "index." ++ FileNames.scriptExtension options.typescript.isGiven

def hooks (v : View) : List String :=
  (if v.parts.state.isEmpty then [] else ["useState"])
    ++ (if !v.parts.effects.isEmpty || v.setsTitle then ["useEffect"] else [])

/-- The parameter that takes the properties apart. -/
def signature (v : View) : String :=
  if v.parts.props.isEmpty then ""
  else "\x7b " ++ Text.join ", " (v.parts.props.map (·.pattern)) ++ " \x7d"
    ++ (if v.typescript.isGiven then ": " ++ v.name.display ++ "Props" else "")

/-- Blocks with a blank line in front of each, unless nothing precedes the first. -/
def withGaps (preceded : Bool) (blocks : List (Table Json)) : Json :=
  Analysis.objects (blocks.mapIdx fun i b => b.set "gap" (.bool (preceded || 0 < i)))

def additions (_ : Config) (v : View) : Except Fault (Table Json) :=
  let p := v.parts
  .ok [
    ("effects", withGaps (!p.state.isEmpty) (p.effects.map (·.toFields))),
    ("functions", withGaps (!p.state.isEmpty || !p.effects.isEmpty) (p.functions.map (·.toFields))),
    ("hasBody", .bool (!p.state.isEmpty || !p.effects.isEmpty || !p.functions.isEmpty)),
    ("hooks", .ofStrings (hooks v)),
    ("hasHooks", .bool (!(hooks v).isEmpty)),
    ("propsSignature", .str (signature v)),
    ("jsxContent", .str p.markup)]

def target : Target where
  framework := .react
  templates := templates
  helpers := [("docComment", .function Helper.docComment)]
  dialect _ options := .ok (.react options.isModule.isGiven)
  fileNames := fileNames
  additions := additions

end ViewWriter.Target.React
