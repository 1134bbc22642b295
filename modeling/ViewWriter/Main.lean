import ViewWriter.Archive
import ViewWriter.CommandLine.Display

/-!
The program: reads the files that its command names, carries the command out, and writes what has
changed. Nothing is fetched from the web.
-/

namespace ViewWriter.CommandLine

/-- What stands at a path on the disk, if anything. What cannot be read as a file is a folder. -/
def lookUp (path : String) : IO (Option (String × Option String)) := do
  try
    let bytes ← IO.FS.readBinFile path
    return some (path, some ((String.fromUTF8? bytes).getD ""))
  catch
    | .noFileOrDirectory .. => return none
    | _ => return some (path, none)

/-- The part of the disk that a command can see. -/
def snapshot (paths : List String) : IO Folder := do
  let found ← (paths.flatMap Path.stages).eraseDups.mapM lookUp
  return .ofFiles (found.filterMap id)

def writeEntry (path : String) : Entry → IO Unit
  | .file text => do
    IO.FS.createDirAll (Path.parent path)
    IO.FS.writeFile path text
  | .archive files => IO.FS.writeBinFile path ⟨(Archive.ofTexts files).toArray⟩
  | .folder => IO.FS.createDirAll path

def failureText (f : Failure) : String := "Error: " ++ f.message?.getD "unexpected value"

def execute (words : List String) : IO UInt32 := do
  let before ← snapshot (pathsOf words)
  match run { folder := before } words with
  | .error f =>
    IO.eprintln (failureText f)
    return 1
  | .ok o =>
    for e in Folder.changes before o.folder do
      writeEntry e.1 e.2
    for line in o.console.flatMap Item.lines do
      IO.println line
    if o.console.isEmpty then IO.println usage
    return o.exit.toUInt32

end ViewWriter.CommandLine

def main (words : List String) : IO UInt32 := ViewWriter.CommandLine.execute words
