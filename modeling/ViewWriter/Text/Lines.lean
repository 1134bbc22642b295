import ViewWriter.Text.Split

/-!
Texts as lines: margins, marks and blank lines. Tidy text has no white space at line ends, no blank lines
at both ends or in a row, and one line break at its end.
-/

namespace ViewWriter.Text

def lines (cs : List Char) : List (List Char) := splitOn '\n' cs

def unlines (ls : List (List Char)) : List Char := joinWith ['\n'] ls

def isBlankLine (l : List Char) : Bool := l.all isBlank

/-- Puts `mark` in front of every line that is not blank. -/
def markLines (mark cs : List Char) : List Char :=
  unlines ((lines cs).map fun l => if isBlankLine l then l else mark ++ l)

def spaces (n : Int) : List Char := List.replicate n.toNat ' '

theorem lines_unlines_lines (cs : List Char) : unlines (lines cs) = cs := joinWith_splitOn '\n' cs

/-- Keeps the first of empty lines in a row. -/
def collapse (afterEmpty : Bool) : List (List Char) → List (List Char)
  | [] => []
  | l :: rest =>
    if l.isEmpty then if afterEmpty then collapse true rest else [] :: collapse true rest
    else l :: collapse false rest

def tidyChars (cs : List Char) : List Char :=
  let kept := collapse false ((lines cs).map (trimEnd isBlank))
  match trim (· == '\n') (unlines kept) with
  | [] => []
  | body => body ++ ['\n']

def tidy (s : String) : String := String.ofList (tidyChars s.toList)

end ViewWriter.Text
