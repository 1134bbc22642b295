import ViewWriter.Text.Lines

/-!
Characters that would be read as markup, as comment ends or as script, and the forms that stand
for them.
-/

namespace ViewWriter.Text

/-- What stands for a character in text content. -/
def contentEntity : Char → List Char
  | '&' => "&amp;".toList
  | '<' => "&lt;".toList
  | '>' => "&gt;".toList
  | c => [c]

/-- What stands for a character in an attribute between double quotes. -/
def attributeEntity : Char → List Char
  | '"' => "&quot;".toList
  | c => contentEntity c

/-- What stands for a character in an attribute between quotes of either kind. -/
def quotedEntity : Char → List Char
  | '\'' => "&#x27;".toList
  | c => attributeEntity c

/-- What stands for a character in text content where braces begin an expression. -/
def bracedEntity : Char → List Char
  | '\x7b' => "&#123;".toList
  | '\x7d' => "&#125;".toList
  | c => contentEntity c

def mapChars (f : Char → List Char) (s : String) : String := String.ofList (s.toList.flatMap f)

def escapeContent (s : String) : String := mapChars contentEntity s
def escapeAttribute (s : String) : String := mapChars attributeEntity s
def escapeQuoted (s : String) : String := mapChars quotedEntity s
def escapeBraced (s : String) : String := mapChars bracedEntity s

/-- A comment block with a line for each line of the text. -/
def commentBlock (margin : List Char) (text : List Char) : List Char :=
  unlines ((margin ++ "/**".toList)
    :: (lines text).map (fun l => trimEnd isBlank (margin ++ " * ".toList ++ l))
    ++ [margin ++ " */".toList])

/-- The inside of a script template between backticks: backslashes, backticks and the openings of
substitutions get a backslash. -/
def templateChars : List Char → List Char
  | [] => []
  | '$' :: '\x7b' :: rest => '\\' :: '$' :: '\x7b' :: templateChars rest
  | c :: rest =>
    if c == '\\' || c == '`' then '\\' :: c :: templateChars rest else c :: templateChars rest

end ViewWriter.Text
