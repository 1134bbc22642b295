import ViewWriter.Framework

/-!
Generated code: files by kind, with warnings and facts about them.
-/

namespace ViewWriter

structure Artifact where
  name : String
  content : String
deriving DecidableEq, Repr

structure Code where
  files : Table Artifact
  framework : Framework
  warnings : List String := []
  metadata : Table Json := []

/-- The part of a file name after its last point. -/
def Artifact.extension (a : Artifact) : String :=
  String.ofList (a.name.toList.reverse.takeWhile (· != '.')).reverse

end ViewWriter
