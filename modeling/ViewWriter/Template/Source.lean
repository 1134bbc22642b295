import ViewWriter.Text.Split

/-!
Words for writing template sources: tags and lines.
-/

namespace ViewWriter.Template.Source

def braces (s : String) : String := "\x7b" ++ s ++ "\x7d"

def mark (body : String) : String := braces (braces body)

def openIf (condition : String) : String := mark ("#if " ++ condition)
def otherwise : String := mark "#else"
def closeIf : String := mark "/if"
def openEach (source : String) : String := mark ("#each " ++ source)
def closeEach : String := mark "/each"

def ofLines (lines : List String) : String := Text.concat (lines.map (· ++ "\n"))

/-- Rules of a plain stylesheet, which every framework writes as a separate file. -/
def stylesheet : List String := [
  openEach "styles",
  mark "item.selector" ++ " \x7b",
  openEach "item.declarations",
  "  " ++ mark "item.property" ++ ": " ++ mark "item.value" ++ ";",
  closeEach,
  "\x7d",
  "",
  closeEach]

end ViewWriter.Template.Source
