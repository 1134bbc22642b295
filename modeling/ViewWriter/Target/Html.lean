import ViewWriter.Target.View
import ViewWriter.Template.Source

/-!
Plain markup with a small script that keeps bound attributes in step with its state.
-/

namespace ViewWriter.Target.Html

open ViewWriter.Template ViewWriter.Template.Source

def scriptLines : List String := [
  openIf "hasScript",
  "<script type=\"module\">",
  openEach "imports",
  "  import " ++ mark "item.name" ++ " from '" ++ mark "item.source" ++ "';",
  closeEach,
  openEach "state",
  "  let " ++ mark "item.name" ++ " = " ++ mark "item.initialValue" ++ ";",
  "  const " ++ mark "item.setter" ++ " = (value) => \x7b",
  "    " ++ mark "item.name" ++ " = value;",
  "    render();",
  "  \x7d;",
  closeEach,
  openEach "functions",
  "",
  "  function " ++ mark "item.name" ++ "(" ++ mark "item.paramList" ++ ") \x7b",
  mark "indent item.body 4",
  "  \x7d",
  closeEach,
  "",
  "  const scope = () => (\x7b " ++ mark "join scopeNames \", \"" ++ " \x7d);",
  "",
  "  function evaluate(expression) \x7b",
  "    const values = scope();",
  "    return new Function(...Object.keys(values), `return ($\x7bexpression\x7d);`)"
    ++ "(...Object.values(values));",
  "  \x7d",
  "",
  "  function render() \x7b",
  "    document.querySelectorAll('*').forEach((element) => \x7b",
  "      for (const attribute of Array.from(element.attributes)) \x7b",
  "        if (attribute.name === 'data-bind-text') \x7b",
  "          element.textContent = evaluate(attribute.value);",
  "        \x7d else if (attribute.name.startsWith('data-bind-')) \x7b",
  "          element.setAttribute(attribute.name.slice(10), evaluate(attribute.value));",
  "        \x7d",
  "      \x7d",
  "    \x7d);",
  "  \x7d",
  "",
  "  document.querySelectorAll('*').forEach((element) => \x7b",
  "    for (const attribute of Array.from(element.attributes)) \x7b",
  "      if (attribute.name.startsWith('data-on-')) \x7b",
  "        element.addEventListener(attribute.name.slice(8), (event) => \x7b",
  "          const handler = evaluate(attribute.value);",
  "          if (typeof handler === 'function') \x7b",
  "            handler(event);",
  "          \x7d",
  "        \x7d);",
  "      \x7d",
  "    \x7d",
  "  \x7d);",
  "",
  "  render();",
  openEach "effects",
  "",
  "  (() => \x7b",
  mark "indent item.body 4",
  "  \x7d)();",
  openIf "item.hasCleanup",
  "  window.addEventListener('pagehide', () => \x7b",
  mark "indent item.cleanup 4",
  "  \x7d);",
  closeIf,
  closeEach,
  "</script>",
  closeIf]

def componentLines : List String := [
  openIf "description",
  "<!-- " ++ mark "htmlEscape description" ++ " -->",
  closeIf,
  openIf "hasStyles",
  "<link rel=\"stylesheet\" href=\"./" ++ mark "styleFile" ++ "\">",
  closeIf,
  mark "markup"] ++ scriptLines

def language : String := "<html lang=\"" ++ mark "default custom.lang \"en\"" ++ "\">"

def pageLines : List String := [
  "<!DOCTYPE html>",
  language,
  "<head>",
  "  <meta charset=\"utf-8\">",
  "  <meta name=\"viewport\" content=\"width=device-width, initial-scale=1\">",
  "  <title>" ++ mark "htmlEscape pageTitle" ++ "</title>",
  openIf "description",
  "  <meta name=\"description\" content=\"" ++ mark "htmlEscape description" ++ "\">",
  closeIf,
  openIf "hasStyles",
  "  <link rel=\"stylesheet\" href=\"./" ++ mark "styleFile" ++ "\">",
  closeIf,
  "</head>",
  "<body>",
  mark "indent markup 2"]
  ++ scriptLines ++ ["</body>", "</html>"]

def indexLines : List String := [
  "<!DOCTYPE html>",
  language,
  "<head>",
  "  <meta charset=\"utf-8\">",
  "  <title>" ++ mark "htmlEscape componentName" ++ "</title>",
  "</head>",
  "<body>",
  "  <ul>",
  "    <li><a href=\"./" ++ mark "fileName" ++ "\">" ++ mark "htmlEscape componentName"
    ++ "</a></li>",
  "  </ul>",
  "</body>",
  "</html>"]

def templates : Table Json := [
  ("component", .str (ofLines componentLines)), ("page", .str (ofLines pageLines)),
  ("styles", .str (ofLines stylesheet)), ("index", .str (ofLines indexLines))]

def fileNames (name : String) (_ : Options) : FileNames :=
  ⟨name ++ ".html", name ++ ".css", "index.html"⟩

def scopeNames (p : Analysis.Parts) : List String :=
  p.state.flatMap (fun v => [v.name, v.setter]) ++ p.functions.map (·.name)
    ++ p.imports.map (·.name)

def hasScript (p : Analysis.Parts) : Bool :=
  !p.state.isEmpty || !p.effects.isEmpty || !p.functions.isEmpty || !p.imports.isEmpty
    || Text.hasPart Markup.Dialect.bindingPrefix.toList p.markup.toList
    || Text.hasPart Markup.Dialect.eventPrefix.toList p.markup.toList

def additions (_ : Config) (v : View) : Except Fault (Table Json) := .ok [
  ("scopeNames", .ofStrings (scopeNames v.parts)),
  ("hasScript", .bool (hasScript v.parts)),
  ("isModule", .bool false)]

def target : Target where
  framework := .html
  templates := templates
  helpers := [("htmlEscape", .function Helper.htmlEscape)]
  dialect _ _ := .ok .html
  fileNames := fileNames
  additions := additions

end ViewWriter.Target.Html
