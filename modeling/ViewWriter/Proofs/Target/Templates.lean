import ViewWriter.Proofs.Template.Loops
import ViewWriter.Proofs.Template.Totality
import ViewWriter.Target.React
import ViewWriter.Target.Vue

/-! The nodes of the main templates, and what they do in every context. -/

namespace ViewWriter.Target

open ViewWriter.Template ViewWriter.Template.Source

namespace React

def styleImport : Node :=
  .conditional (.holds "hasStyles")
    [.conditional (.holds "isModule")
      [.text "import styles from './", .interpolation "styleFile", .text "';\n"]
      [.text "import './", .interpolation "styleFile", .text "';\n"]] []

def importNodes : List Node := [
  .conditional (.holds "hasHooks")
    [.text "import \x7b ", .call "join" ["hooks", "\", \""] (mark "join hooks \", \""),
      .text " \x7d from 'react';\n"] [],
  importLoop,
  styleImport]

def stateBody : List Node := [
  .text "  const [", .interpolation "item.name", .text ", ", .interpolation "item.setter",
  .text "] = useState",
  .conditional (.holds "typescript") [.text "<", .interpolation "item.type", .text ">"] [],
  .text "(", .interpolation "item.initialValue", .text ");\n"]

def effectBody : List Node := [
  .conditional (.holds "item.gap") [.text "\n"] [],
  .text "  useEffect(() => \x7b\n", .call "indent" ["item.body", "4"] (mark "indent item.body 4"),
  .text "\n",
  .conditional (.holds "item.hasCleanup")
    [.text "    return () => \x7b\n",
      .call "indent" ["item.cleanup", "6"] (mark "indent item.cleanup 6"), .text "\n    \x7d;\n"] [],
  .text "  \x7d, [", .interpolation "item.depsList", .text "]);\n"]

def functionBody : List Node := [
  .conditional (.holds "item.gap") [.text "\n"] [],
  .text "  const ", .interpolation "item.name", .text " = (", .interpolation "item.paramList",
  .text ") => \x7b\n", .call "indent" ["item.body", "4"] (mark "indent item.body 4"),
  .text "\n  \x7d;\n"]

def stateLoop : Node := .loop "state" stateBody

def functionLoop : Node := .loop "functions" functionBody

def bodyNodes : List Node := [
  stateLoop,
  .loop "effects" effectBody,
  functionLoop,
  .conditional (.holds "hasBody") [.text "\n"] [],
  .text "  return (\n", .call "indent" ["jsxContent", "4"] (mark "indent jsxContent 4"),
  .text "\n  );\n\x7d\n"]

def propertyTypes : Node :=
  .conditional (.holds "typescript")
    [.conditional (.holds "hasProps")
      [.text "export interface ", .interpolation "componentName", .text "Props \x7b\n",
        .loop "props"
          [.text "  ", .interpolation "item.name", .conditional (.holds "item.optional") [.text "?"] [],
            .text ": ", .interpolation "item.type", .text ";\n"],
        .text "\x7d\n\n"] []] []

def parameterNodes : List Node := [.text "(", .interpolation "propsSignature", .text ") \x7b\n"]

def componentNodes : List Node :=
  importNodes ++ [.text "\n", propertyTypes,
    .call "docComment" ["description"] (mark "docComment description"),
    .text "\nexport default function ", .interpolation "componentName"] ++ parameterNodes ++ bodyNodes

def pageNodes : List Node :=
  importNodes ++ [.text "\n", .call "docComment" ["description"] (mark "docComment description"),
    .text "\nexport default function ", .interpolation "pageName", .text "() \x7b\n",
    .conditional (.holds "pageTitle")
      [.text "  useEffect(() => \x7b\n    document.title = ",
        .call "json" ["pageTitle"] (mark "json pageTitle"), .text ";\n  \x7d, []);\n\n"] []] ++ bodyNodes

def mainNodes (page : Bool) : List Node := if page then pageNodes else componentNodes

end React

namespace Vue

def styleElement : Node :=
  .conditional (.holds "hasStyles")
    [.text "\n<style", .conditional (.holds "isModule") [.text " module"] [.text " scoped"],
      .text " src=\"./", .interpolation "styleFile", .text "\"></style>\n"] []

end Vue

/-- What is computed of the nodes of the templates, all together, which evaluates the lines that
templates share once. -/
lemma templates_checked :
    nodesWithin (sourceChars React.componentLines) = some React.componentNodes ∧
      nodesWithin (sourceChars React.pageLines) = some React.pageNodes ∧
      areUnfailing React.componentNodes = true ∧
      (nodesWithin (sourceChars React.indexLines)).any areUnfailing = true ∧
      (nodesWithin (sourceChars Vue.componentLines)).any
        (fun nodes => standsAt [importLoop] true nodes && [Vue.styleElement].isSuffixOf nodes) = true := by
  simp only [React.componentLines, React.pageLines, React.indexLines, React.importLines,
    React.bodyLines, Vue.componentLines, Vue.scriptLines, sourceChars, List.cons_append,
    List.nil_append, List.flatMap_cons, List.flatMap_nil, openIf, closeIf, openEach, closeEach,
    otherwise, mark, braces, String.toList_append]
  -- the lines as lists of characters, which the kernel would decode one byte after the other
  repeat rw [String.toList_ofList]
  decide +kernel

lemma React.compile_component : compile (ofLines React.componentLines) = React.componentNodes :=
  compile_eq (by rw [toList_ofLines]; exact templates_checked.1)

lemma React.compile_page : compile (ofLines React.pageLines) = React.pageNodes :=
  compile_eq (by rw [toList_ofLines]; exact templates_checked.2.1)

lemma React.standsAt_importLoop (page : Bool) :
    standsAt [importLoop] true (React.mainNodes page) = true := by
  cases page <;> decide

lemma React.areUnfailing_component : areUnfailing React.componentNodes = true :=
  templates_checked.2.2.1

lemma Vue.component_checked :
    standsAt [importLoop] true (compile (ofLines Vue.componentLines)) = true ∧
      [Vue.styleElement] <:+: compile (ofLines Vue.componentLines) := by
  have hchecked := check_compile templates_checked.2.2.2.2
  rw [Bool.and_eq_true] at hchecked
  exact ⟨hchecked.1, (List.isSuffixOf_iff_suffix.1 hchecked.2).isInfix⟩

lemma areUnfailing_stylesheet : areUnfailing (compile (ofLines stylesheet)) = true := by
  rw [compile_stylesheet]
  decide

lemma areUnfailing_reactIndex : areUnfailing (compile (ofLines React.indexLines)) = true :=
  check_compile templates_checked.2.2.2.1

end ViewWriter.Target
