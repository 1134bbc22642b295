/-!
Names of log channels. All of them lie below one root.
-/

namespace ViewWriter.Name

def rootChannel : String := "ui_codegen"

/-- The channel of a part: its name, below the root unless it is there already. -/
def channel (part : String) : String :=
  if part == rootChannel || (rootChannel ++ ".").toList.isPrefixOf part.toList then part
  else rootChannel ++ "." ++ part

end ViewWriter.Name
