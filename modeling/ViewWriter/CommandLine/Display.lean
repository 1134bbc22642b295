import ViewWriter.CommandLine.Run

/-!
What is shown to the user, as plain lines.
-/

namespace ViewWriter.CommandLine

open ViewWriter.Text

/-- The styles that marks in a line turn on and off. -/
def styleNames : List String := ["red", "green", "yellow", "cyan", "bold"]

def styleMarks : List (List Char) :=
  styleNames.flatMap fun name => [("[" ++ name ++ "]").toList, ("[/" ++ name ++ "]").toList]

/-- A line without the marks for styles. -/
def plain (line : String) : String :=
  String.ofList (styleMarks.foldl (fun cs mark => replaceAll mark [] cs) line.toList)

def padded (width : Nat) (cell : String) : String :=
  cell ++ String.ofList (List.replicate (width - cell.length) ' ')

def columnWidth (rows : List (List String)) (column : Nat) : Nat :=
  (rows.map fun row => (row.getD column "").length).foldl max 0

/-- Rows as lines, with the cells of each column below each other. -/
def tableLines (rows : List (List String)) : List String :=
  rows.map fun row =>
    trimmed ("  ".intercalate (row.mapIdx fun i cell => padded (columnWidth rows i) cell))

def Item.lines : Item → List String
  | .line text => [plain text]
  | .panel title text => ["", "── " ++ title, plain text]
  | .table title columns rows => ["", title, ""] ++ tableLines (columns :: rows)

def usage : String := join "\n" [
  "usage: view-writer [--verbose] generate SCHEMA [--name NAME] [OPTION ...]",
  "       view-writer [--verbose] page SCHEMA ... [--page-name NAME] [--title TITLE] [OPTION ...]",
  "       view-writer [--verbose] frameworks [--info FRAMEWORK]",
  "",
  "options: --framework, --typescript, --description, --module, --optimize, --lazy, --config,",
  "         --no-comments, --save-config, and one of --output, --bundle, --zip"]

end ViewWriter.CommandLine
