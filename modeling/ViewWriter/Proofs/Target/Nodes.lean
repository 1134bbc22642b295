import ViewWriter.Generator.Basic
import ViewWriter.Proofs.Target.Templates
import ViewWriter.Proofs.Template.Sketching
import ViewWriter.Target.Angular
import ViewWriter.Target.Html

/-! The nodes of the main templates of the other frameworks. -/

namespace ViewWriter.Target

open ViewWriter.Template ViewWriter.Template.Source

namespace Vue

def primitiveImport : List Node :=
  [.text "import \x7b ", .call "join" ["vueImports", "\", \""] (mark "join vueImports \", \""),
    .text " \x7d from 'vue';\n"]

def propertyNode : Node :=
  .conditional (.holds "hasProps")
    [.text "\nconst props = defineProps(\x7b\n",
      .loop "props"
        [.text "  ", .interpolation "item.name", .text ": ", .interpolation "item.runtime",
          .text ",\n"],
      .text "\x7d);\n"] []

def stateBody : List Node := [
  .text "\nconst ", .interpolation "item.name", .text " = ref",
  .conditional (.holds "typescript") [.text "<", .interpolation "item.type", .text ">"] [],
  .text "(", .interpolation "item.initialValue", .text ");\nconst ", .interpolation "item.setter",
  .text " = (value",
  .conditional (.holds "typescript") [.text ": ", .interpolation "item.type"] [],
  .text ") => \x7b\n  ", .interpolation "item.name", .text ".value = value;\n\x7d;\n"]

def functionBody : List Node := [
  .text "\nconst ", .interpolation "item.name", .text " = (", .interpolation "item.paramList",
  .text ") => \x7b\n", .call "indent" ["item.body", "2"] (mark "indent item.body 2"),
  .text "\n\x7d;\n"]

def watchNodes : List Node := [
  .text "watch([", .interpolation "item.depsList", .text "], (_value, _previous, onCleanup) => \x7b\n",
  .call "indent" ["item.body", "2"] (mark "indent item.body 2"), .text "\n",
  .conditional (.holds "item.hasCleanup")
    [.text "  onCleanup(() => \x7b\n",
      .call "indent" ["item.cleanup", "4"] (mark "indent item.cleanup 4"), .text "\n  \x7d);\n"] [],
  .text "\x7d, \x7b immediate: true \x7d);\n"]

def mountNodes : List Node := [
  .text "onMounted(() => \x7b\n", .call "indent" ["item.body", "2"] (mark "indent item.body 2"),
  .text "\n\x7d);\n",
  .conditional (.holds "item.hasCleanup")
    [.text "\nonUnmounted(() => \x7b\n",
      .call "indent" ["item.cleanup", "2"] (mark "indent item.cleanup 2"), .text "\n\x7d);\n"] []]

def effectBody : List Node := [.text "\n", .conditional (.holds "item.deps") watchNodes mountNodes]

def mainNodes : List Node := [
  .text "<template>\n", .call "indent" ["markup", "2"] (mark "indent markup 2"),
  .text "\n</template>\n\n<script setup",
  .conditional (.holds "typescript") [.text " lang=\"ts\""] [],
  .text ">\n",
  .conditional (.holds "hasVueImports") primitiveImport [],
  importLoop,
  .conditional (.holds "description")
    [.text "\n", .call "comment" ["description"] (mark "comment description"), .text "\n"] [],
  propertyNode,
  .conditional (.holds "pageTitle")
    [.text "\ndocument.title = ", .call "json" ["pageTitle"] (mark "json pageTitle"), .text ";\n"] [],
  .loop "state" stateBody,
  .loop "functions" functionBody,
  .loop "effects" effectBody,
  .text "</script>\n",
  styleElement]

end Vue

namespace Angular

def coreImport : List Node :=
  [.text "import \x7b ", .call "join" ["coreImports", "\", \""] (mark "join coreImports \", \""),
    .text " \x7d from '@angular/core';\nimport \x7b CommonModule \x7d from '@angular/common';\n"]

def importBody : List Node := [
  .conditional (.holds "item.component")
    [.text "import \x7b ", .interpolation "item.name", .text " \x7d from '",
      .interpolation "item.source", .text "';\n"]
    [.text "import ", .interpolation "item.name", .text " from '", .interpolation "item.source",
      .text "';\n"]]

def styleNode : Node :=
  .conditional (.holds "hasStyles")
    [.text "  styleUrls: ['./", .interpolation "styleFile", .text "'],\n"] []

def decoratorNodes : List Node := [
  .text "\n", .call "docComment" ["description"] (mark "docComment description"),
  .text "\n@Component(\x7b\n  selector: '", .interpolation "selector",
  .text "',\n  standalone: true,\n  imports: [",
  .call "join" ["standaloneImports", "\", \""] (mark "join standaloneImports \", \""),
  .text "],\n  template: `\n", .call "templateLiteral" ["markup", "4"] (mark "templateLiteral markup 4"),
  .text "\n  `,\n",
  styleNode,
  .text "\x7d)\nexport class ", .interpolation "className"]

def lifecycleNode : Node :=
  .conditional (.holds "lifecycle")
    [.text " implements ", .call "join" ["lifecycle", "\", \""] (mark "join lifecycle \", \"")] []

def fieldNodes : List Node := [
  .loop "props" [.text "  @Input() ", .interpolation "item.declaration", .text ";\n"],
  .loop "state"
    [.text "  ", .interpolation "item.name", .text ": ", .interpolation "item.type", .text " = ",
      .interpolation "item.initialValue", .text ";\n"],
  .conditional (.holds "pageTitle")
    [.text "\n  constructor(private readonly title: Title) \x7b\x7d\n"] []]

def hookNodes : List Node := [
  .conditional (.holds "hasInit")
    [.text "\n  ngOnInit(): void \x7b\n",
      .conditional (.holds "pageTitle")
        [.text "    this.title.setTitle(", .call "json" ["pageTitle"] (mark "json pageTitle"),
          .text ");\n"] [],
      .loop "effects" [.call "indent" ["item.body", "4"] (mark "indent item.body 4"), .text "\n"],
      .text "  \x7d\n"] [],
  .conditional (.holds "hasDestroy")
    [.text "\n  ngOnDestroy(): void \x7b\n",
      .loop "effects"
        [.call "indent" ["item.cleanup", "4"] (mark "indent item.cleanup 4"), .text "\n"],
      .text "  \x7d\n"] []]

def methodNodes : List Node := [
  .loop "state"
    [.text "\n  ", .interpolation "item.setter", .text "(value: ", .interpolation "item.type",
      .text "): void \x7b\n    this.", .interpolation "item.name", .text " = value;\n  \x7d\n"],
  .loop "functions"
    [.text "\n  ", .interpolation "item.name", .text "(", .interpolation "item.paramList",
      .text "): void \x7b\n", .call "indent" ["item.body", "4"] (mark "indent item.body 4"),
      .text "\n  \x7d\n"],
  .text "\x7d\n"]

def titleImport : Node :=
  .conditional (.holds "pageTitle")
    [.text "import \x7b Title \x7d from '@angular/platform-browser';\n"] []

def mainNodes : List Node :=
  coreImport ++ titleImport :: .loop "imports" importBody :: decoratorNodes ++
    lifecycleNode :: .text " \x7b\n" :: fieldNodes ++ hookNodes ++ methodNodes

end Angular

lemma mainNodes_checked :
    isSketchOf (sketches Vue.mainNodes) (sourceChars Vue.componentLines) = true ∧
      isSketchOf (sketches Angular.mainNodes) (sourceChars Angular.classLines) = true := by
  simp only [Vue.mainNodes, Vue.primitiveImport, Vue.propertyNode, Vue.stateBody, Vue.functionBody,
    Vue.effectBody, Vue.watchNodes, Vue.mountNodes, Vue.styleElement, importLoop, Angular.mainNodes,
    Angular.coreImport, Angular.titleImport, Angular.importBody, Angular.decoratorNodes,
    Angular.styleNode, Angular.lifecycleNode, Angular.fieldNodes, Angular.hookNodes,
    Angular.methodNodes, sketches, Node.sketch, Vue.componentLines, Vue.scriptLines,
    Angular.classLines, sourceChars, List.cons_append, List.nil_append, List.flatMap_cons,
    List.flatMap_nil, List.map_cons, List.map_nil, openIf, closeIf, openEach, closeEach, otherwise,
    mark, braces, String.toList_append]
  repeat rw [String.toList_ofList]
  decide +kernel

lemma Vue.compile_main : compile (ofLines Vue.componentLines) = Vue.mainNodes :=
  compile_of_sketch mainNodes_checked.1

lemma Angular.compile_main : compile (ofLines Angular.classLines) = Angular.mainNodes :=
  compile_of_sketch mainNodes_checked.2

end ViewWriter.Target

/-! The nodes of the index templates. -/

namespace ViewWriter.Target

open ViewWriter.Template ViewWriter.Template.Source

/-- Two lines that pass on the default export of a file, whose name is under a key. -/
def defaultExports (key : String) : List Node := [
  .text "export \x7b default \x7d from './", .interpolation key,
  .text "';\nexport \x7b default as ", .interpolation "componentName", .text " \x7d from './",
  .interpolation key, .text "';\n"]

namespace React

def typeExport : Node :=
  .conditional (.holds "typescript")
    [.conditional (.holds "hasProps")
      [.text "export type \x7b ", .interpolation "componentName", .text "Props \x7d from './",
        .interpolation "moduleName", .text "';\n"] []] []

def indexNodes : List Node := defaultExports "moduleName" ++ [typeExport]

end React

def Vue.indexNodes : List Node := defaultExports "fileName"

def Angular.indexNodes : List Node := [
  .text "export \x7b ", .interpolation "className", .text " \x7d from './", .interpolation "moduleName",
  .text "';\n"]

namespace Html

def indexHead : List Node := [
  .text "<!DOCTYPE html>\n<html lang=\"",
  .call "default" ["custom.lang", "\"en\""] (mark "default custom.lang \"en\""),
  .text "\">\n<head>\n  <meta charset=\"utf-8\">\n  <title>",
  .call "htmlEscape" ["componentName"] (mark "htmlEscape componentName")]

def indexLink : List Node := [
  .text "</title>\n</head>\n<body>\n  <ul>\n    <li><a href=\"./", .interpolation "fileName",
  .text "\">", .call "htmlEscape" ["componentName"] (mark "htmlEscape componentName"),
  .text "</a></li>\n  </ul>\n</body>\n</html>\n"]

def indexNodes : List Node := indexHead ++ indexLink

end Html

def indexNodes : Framework → List Node
  | .react => React.indexNodes
  | .vue => Vue.indexNodes
  | .angular => Angular.indexNodes
  | .html => Html.indexNodes

def indexLines : Framework → List String
  | .react => React.indexLines
  | .vue => Vue.indexLines
  | .angular => Angular.indexLines
  | .html => Html.indexLines

lemma member_index (f : Framework) :
    Json.member (Target.ofFramework f).templates "index" = .str (ofLines (indexLines f)) := by
  cases f <;> rfl

lemma compile_index (f : Framework) : compile (ofLines (indexLines f)) = indexNodes f := by
  refine compile_of_sketch ?_
  cases f <;>
  · simp only [indexNodes, indexLines, React.indexNodes, Vue.indexNodes, Angular.indexNodes,
      Html.indexNodes, Html.indexHead, Html.indexLink, React.typeExport, defaultExports,
      React.indexLines, Vue.indexLines, Angular.indexLines, Html.indexLines, Html.language, sketches,
      sketches_append, Node.sketch, sourceChars, List.flatMap_cons,
      List.flatMap_nil, List.map_cons, List.map_nil, openIf, closeIf, mark, braces,
      String.toList_append]
    repeat rw [String.toList_ofList]
    decide +kernel

end ViewWriter.Target
