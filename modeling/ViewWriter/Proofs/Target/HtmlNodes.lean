import ViewWriter.Generator.Basic
import ViewWriter.Proofs.Target.Nodes
import ViewWriter.Proofs.Template.Junctions
import ViewWriter.Proofs.Template.Sketching

/-! The nodes of the main templates for plain markup. -/

namespace ViewWriter.Target.Html

open ViewWriter.Text ViewWriter.Template ViewWriter.Template.Source

def descriptionNode (opening closing : String) : Node :=
  .conditional (.holds "description")
    [.text opening, .call "htmlEscape" ["description"] (mark "htmlEscape description"),
      .text closing] []

def styleLink (margin : String) : Node :=
  .conditional (.holds "hasStyles")
    [.text (margin ++ "<link rel=\"stylesheet\" href=\"./"), .interpolation "styleFile",
      .text "\">\n"] []

def importBody : List Node :=
  [.text "  import ", .interpolation "item.name", .text " from '", .interpolation "item.source",
    .text "';\n"]

def stateBody : List Node := [
  .text "  let ", .interpolation "item.name", .text " = ", .interpolation "item.initialValue",
  .text ";\n  const ", .interpolation "item.setter", .text " = (value) => \x7b\n    ",
  .interpolation "item.name", .text " = value;\n    render();\n  \x7d;\n"]

def functionBody : List Node := [
  .text "\n  function ", .interpolation "item.name", .text "(", .interpolation "item.paramList",
  .text ") \x7b\n", .call "indent" ["item.body", "4"] (mark "indent item.body 4"),
  .text "\n  \x7d\n"]

def effectBody : List Node := [
  .text "\n  (() => \x7b\n", .call "indent" ["item.body", "4"] (mark "indent item.body 4"),
  .text "\n  \x7d)();\n",
  .conditional (.holds "item.hasCleanup")
    [.text "  window.addEventListener('pagehide', () => \x7b\n",
      .call "indent" ["item.cleanup", "4"] (mark "indent item.cleanup 4"), .text "\n  \x7d);\n"] []]

/-- The part of the script that is the same for all views, from the end of the line that lists the
scope. -/
def renderingText : String := " \x7d);\n" ++ ofLines ((scriptLines.drop 20).take 32)

def scriptBody : List Node := [
  .text "<script type=\"module\">\n",
  .loop "imports" importBody,
  .loop "state" stateBody,
  .loop "functions" functionBody,
  .text "\n  const scope = () => (\x7b ", .call "join" ["scopeNames", "\", \""] (mark "join scopeNames \", \""),
  .text renderingText,
  .loop "effects" effectBody]

def scriptNode : Node := .conditional (.holds "hasScript") (scriptBody ++ [.text "</script>\n"]) []

def componentNodes : List Node := [
  descriptionNode "<!-- " " -->\n",
  styleLink "",
  .interpolation "markup", .text "\n",
  scriptNode]

def headNodes : List Node := [
  .text "<!DOCTYPE html>\n<html lang=\"",
  .call "default" ["custom.lang", "\"en\""] (mark "default custom.lang \"en\""),
  .text ("\">\n<head>\n  <meta charset=\"utf-8\">\n" ++
    "  <meta name=\"viewport\" content=\"width=device-width, initial-scale=1\">\n  <title>"),
  .call "htmlEscape" ["pageTitle"] (mark "htmlEscape pageTitle"), .text "</title>\n",
  descriptionNode "  <meta name=\"description\" content=\"" "\">\n",
  styleLink "  "]

def pageNodes : List Node :=
  headNodes ++ [.text "</head>\n<body>\n", .call "indent" ["markup", "2"] (mark "indent markup 2"),
    .text "\n", scriptNode, .text "</body>\n</html>\n"]

def mainNodes (page : Bool) : List Node := if page then pageNodes else componentNodes

lemma mainNodes_checked :
    isSketchOf (sketches componentNodes) (sourceChars componentLines) = true ∧
      isSketchOf (sketches pageNodes) (sourceChars pageLines) = true := by
  simp only [componentNodes, pageNodes, headNodes, scriptNode, scriptBody, descriptionNode, styleLink,
    importBody, stateBody, functionBody, effectBody, renderingText, componentLines, pageLines,
    scriptLines, language, sketches, sketches_append, Node.sketch, toList_ofLines, sourceChars,
    List.flatMap_append, List.flatMap_cons, List.flatMap_nil, List.map_cons, List.map_nil, openIf,
    closeIf, openEach, closeEach, mark, braces, String.toList_append, List.drop_succ_cons,
    List.drop_zero, List.take_succ_cons, List.take_zero]
  repeat rw [String.toList_ofList]
  decide +kernel

lemma compile_component : compile (ofLines componentLines) = componentNodes :=
  compile_of_sketch mainNodes_checked.1

lemma compile_page : compile (ofLines pageLines) = pageNodes := compile_of_sketch mainNodes_checked.2

/-! The part of the script that is the same for all views, which readings take as a whole. -/

lemma renderingText_checked :
    renderingText.toList.head? = some ' ' ∧ renderingText.toList.getLast? = some '\n' ∧
      hasPart "./".toList renderingText.toList = false ∧
      hasPart "</script".toList (renderingText.toList.map asciiLower) = false := by
  simp only [renderingText, scriptLines, String.toList_append, toList_ofLines, List.drop_succ_cons,
    List.drop_zero, List.take_succ_cons, List.take_zero, sourceChars, List.flatMap_cons,
    List.flatMap_nil]
  repeat rw [String.toList_ofList]
  decide +kernel

section Readings

variable {R : Reading} {after : Opening}

lemma opening_rendering : (Node.text renderingText).opening R after = .stop := by
  have hhead := renderingText_checked.1
  rw [Node.opening]
  cases hchars : renderingText.toList with
  | nil =>
    rw [hchars] at hhead
    cases hhead
  | cons c rest =>
    rw [hchars] at hhead
    obtain rfl := Option.some.inj hhead
    rfl

lemma isApart_rendering (hown : R.isOwn renderingText = true) (hhead : R.head ≠ '\n') :
    (Node.text renderingText).isApart R after = true := by
  have hlast := renderingText_checked.2.1
  rw [Node.isApart, hown, Needle.isSettled_of_stop (by decide) hlast, hlast]
  simpa using .inl hhead.symm

lemma areApart_scriptBody (hown : R.isOwn renderingText = true) (hhead : R.head ≠ '\n')
    (hbefore : areApart R .stop (scriptBody.take 6) = true)
    (hafter : areApart R after [.loop "effects" effectBody] = true) :
    areApart R after scriptBody = true := by
  have hbody : scriptBody =
      scriptBody.take 6 ++ .text renderingText :: [.loop "effects" effectBody] := rfl
  rw [hbody, areApart_append, openingOf, opening_rendering, areApart, isApart_rendering hown hhead,
    hbefore, hafter]
  rfl

end Readings

end ViewWriter.Target.Html

namespace ViewWriter.Target

open ViewWriter.Template

def mainNodes (page : Bool) : Framework → List Node
  | .react => React.mainNodes page
  | .vue => Vue.mainNodes
  | .angular => Angular.mainNodes
  | .html => Html.mainNodes page

end ViewWriter.Target
