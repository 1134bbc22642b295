import ViewWriter.Target.View
import ViewWriter.Template.Source

/-!
Standalone class components with inline templates, always in typed scripts. Style modules have no
counterpart here.
-/

namespace ViewWriter.Target.Angular

open ViewWriter.Template ViewWriter.Template.Source

def classLines : List String := [
  "import \x7b " ++ mark "join coreImports \", \"" ++ " \x7d from '@angular/core';",
  "import \x7b CommonModule \x7d from '@angular/common';",
  openIf "pageTitle",
  "import \x7b Title \x7d from '@angular/platform-browser';",
  closeIf,
  openEach "imports",
  openIf "item.component",
  "import \x7b " ++ mark "item.name" ++ " \x7d from '" ++ mark "item.source" ++ "';",
  otherwise,
  "import " ++ mark "item.name" ++ " from '" ++ mark "item.source" ++ "';",
  closeIf,
  closeEach,
  "",
  mark "docComment description",
  "@Component(\x7b",
  "  selector: '" ++ mark "selector" ++ "',",
  "  standalone: true,",
  "  imports: [" ++ mark "join standaloneImports \", \"" ++ "],",
  "  template: `",
  mark "templateLiteral markup 4",
  "  `,",
  openIf "hasStyles",
  "  styleUrls: ['./" ++ mark "styleFile" ++ "'],",
  closeIf,
  "\x7d)",
  "export class " ++ mark "className" ++ openIf "lifecycle" ++ " implements "
    ++ mark "join lifecycle \", \"" ++ closeIf ++ " \x7b",
  openEach "props",
  "  @Input() " ++ mark "item.declaration" ++ ";",
  closeEach,
  openEach "state",
  "  " ++ mark "item.name" ++ ": " ++ mark "item.type" ++ " = " ++ mark "item.initialValue" ++ ";",
  closeEach,
  openIf "pageTitle",
  "",
  "  constructor(private readonly title: Title) \x7b\x7d",
  closeIf,
  openIf "hasInit",
  "",
  "  ngOnInit(): void \x7b",
  openIf "pageTitle",
  "    this.title.setTitle(" ++ mark "json pageTitle" ++ ");",
  closeIf,
  openEach "effects",
  mark "indent item.body 4",
  closeEach,
  "  \x7d",
  closeIf,
  openIf "hasDestroy",
  "",
  "  ngOnDestroy(): void \x7b",
  openEach "effects",
  mark "indent item.cleanup 4",
  closeEach,
  "  \x7d",
  closeIf,
  openEach "state",
  "",
  "  " ++ mark "item.setter" ++ "(value: " ++ mark "item.type" ++ "): void \x7b",
  "    this." ++ mark "item.name" ++ " = value;",
  "  \x7d",
  closeEach,
  openEach "functions",
  "",
  "  " ++ mark "item.name" ++ "(" ++ mark "item.paramList" ++ "): void \x7b",
  mark "indent item.body 4",
  "  \x7d",
  closeEach,
  "\x7d"]

def indexLines : List String :=
  ["export \x7b " ++ mark "className" ++ " \x7d from './" ++ mark "moduleName" ++ "';"]

def templates : Table Json := [
  ("component", .str (ofLines classLines)), ("page", .str (ofLines classLines)),
  ("styles", .str (ofLines stylesheet)), ("index", .str (ofLines indexLines))]

def fileNames (name : String) (_ : Options) : FileNames :=
  let base := Name.kebab name ++ ".component"
  ⟨base ++ ".ts", base ++ ".css", "index.ts"⟩

def selectorPrefix (config : Config) : Except Fault String :=
  (config.customMember "selector_prefix" (.str "app")).map Json.display

/-- Imports of components next to this one follow the file layout of components. -/
def isComponent (i : Analysis.Import) : Bool := i.source == "./" ++ i.name

def spelled (i : Analysis.Import) : Analysis.Import :=
  if isComponent i then
    { i with name := i.name ++ "Component", source := "./" ++ Name.kebab i.name ++ ".component" }
  else i

def importFields (i : Analysis.Import) : Table Json :=
  Table.merge (i.toFields ++ [("component", .bool (isComponent i))])
    [("name", .str (spelled i).name), ("source", .str (spelled i).source)]

def declaration (p : Analysis.Property) : String :=
  match p.default with
  | some v => p.name ++ ": " ++ p.type.display ++ " = " ++ Analysis.literal v
  | none => p.name ++ (if p.optional then "?" else "!") ++ ": " ++ p.type.display

def hasInit (v : View) : Bool := !v.parts.effects.isEmpty || v.setsTitle

def hasDestroy (v : View) : Bool := v.parts.effects.any (·.hasCleanup)

def lifecycle (v : View) : List String :=
  (if hasInit v then ["OnInit"] else []) ++ (if hasDestroy v then ["OnDestroy"] else [])

def coreImports (v : View) : List String :=
  ["Component"] ++ (if v.parts.props.isEmpty then [] else ["Input"]) ++ lifecycle v

def additions (config : Config) (v : View) : Except Fault (Table Json) := do
  let name := v.name.display
  let selectorPrefix ← selectorPrefix config
  let imports := v.parts.imports
  return [
    ("className", .str (name ++ "Component")),
    ("selector", .str (selectorPrefix ++ "-" ++ Name.kebab name)),
    ("imports", Analysis.objects (imports.map importFields)),
    ("hasImports", .bool (!imports.isEmpty)),
    ("standaloneImports",
      .ofStrings ("CommonModule" :: (imports.filter isComponent).map fun i => (spelled i).name)),
    ("coreImports", .ofStrings (coreImports v)),
    ("lifecycle", .ofStrings (lifecycle v)),
    ("hasInit", .bool (hasInit v)),
    ("hasDestroy", .bool (hasDestroy v)),
    ("props", Analysis.objects (v.parts.props.map fun p =>
      p.toFields ++ [("declaration", .str (declaration p))])),
    ("typescript", .bool true)]

def target : Target where
  framework := .angular
  templates := templates
  helpers := [("docComment", .function Helper.docComment),
    ("templateLiteral", .function Helper.templateLiteral)]
  dialect config _ := (selectorPrefix config).map .angular
  fileNames := fileNames
  spelled := spelled
  additions := additions

end ViewWriter.Target.Angular
