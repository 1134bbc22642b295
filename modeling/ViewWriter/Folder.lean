import ViewWriter.Table
import ViewWriter.Text.Split

/-!
A folder of text files, seen from inside: reading, writing and what can go wrong.
-/

namespace ViewWriter

open ViewWriter.Text

inductive FileProblem where
  | notFound (path : String)
  | exists (path : String)
  | notFolder (path : String)
  | isFolder (path : String)
deriving DecidableEq, Repr

def FileProblem.message : FileProblem → String
  | notFound path => "[Errno 2] No such file or directory: " ++ "'" ++ path ++ "'"
  | .exists path => "[Errno 17] File exists: " ++ "'" ++ path ++ "'"
  | notFolder path => "[Errno 20] Not a directory: " ++ "'" ++ path ++ "'"
  | isFolder path => "[Errno 21] Is a directory: " ++ "'" ++ path ++ "'"

inductive Entry where
  | file (text : String)
  /-- a file that holds other files -/
  | archive (files : Table String)
  | folder
deriving DecidableEq, Repr

/-- Entries by path; the folders on the way to an entry are entries too. Paths lead from the folder
itself or from the root of all folders. -/
structure Folder where
  entries : Table Entry := []

namespace Path

/-- The names on a path, without empty ones and those for the same place. -/
def parts (path : String) : List String :=
  ((splitOn '/' path.toList).map String.ofList).filter fun p => p != "" && p != "."

/-- What a path from the root of all folders begins with. -/
def anchor (path : String) : String :=
  match path.toList with
  | '/' :: '/' :: '/' :: _ => "/"
  | '/' :: '/' :: _ => "//"
  | '/' :: _ => "/"
  | _ => ""

/-- The path in its shortest spelling. -/
def clean (path : String) : String :=
  match anchor path, parts path with
  | "", [] => "."
  | a, ps => a ++ join "/" ps

/-- A path below a folder; one from the root of all folders stands for itself. -/
def below (folder path : String) : String :=
  if folder == "" || anchor path != "" then clean path else clean (folder ++ "/" ++ path)

def parent (path : String) : String := clean (anchor path ++ join "/" (parts path).dropLast)

/-- The paths met on the way to a path, itself the last. -/
def stages (path : String) : List String :=
  let ps := parts path
  (List.range ps.length).map fun n => clean (anchor path ++ join "/" (ps.take (n + 1)))

/-- The ending of the last name, from its last point on, if something stands on both sides. -/
def suffix (path : String) : String :=
  match (parts path).getLast? with
  | none => ""
  | some name =>
    let cs := name.toList
    let ending := (cs.reverse.takeWhile (· != '.')).reverse
    if ending.isEmpty || cs.length ≤ ending.length + 1 then ""
    else String.ofList ('.' :: ending)

end Path

namespace Folder

/-- The place of the root of all folders. That of the folder itself is empty. -/
def rootPlace : List String := [""]

def startOf (path : String) : List String := if Path.anchor path == "" then [] else rootPlace

/-- The place of the folder around a place. The root of all folders is around itself, and what is
around the folder itself is not known. -/
def around? (place : List String) : Option (List String) :=
  if place.isEmpty then none
  else if place == rootPlace then some rootPlace
  else some place.dropLast

def entry? (f : Folder) (place : List String) : Option Entry :=
  if place.isEmpty || place == rootPlace then some .folder else f.entries.get? (join "/" place)

/-- Follows the names of a path from a place, through folders only. -/
def follow (f : Folder) (path : String) (place : List String) :
    List String → Except FileProblem (List String)
  | [] => .ok place
  | name :: rest =>
    match f.entry? place with
    | none => .error (.notFound path)
    | some .folder =>
      if name == ".." then
        match around? place with
        | some outer => follow f path outer rest
        | none => .error (.notFound path)
      else follow f path (place ++ [name]) rest
    | some _ => .error (.notFolder path)

def resolve (f : Folder) (path : String) : Except FileProblem (List String) :=
  f.follow path (startOf path) (Path.parts path)

def find (f : Folder) (path : String) : Except FileProblem Entry := do
  match f.entry? (← f.resolve path) with
  | some e => return e
  | none => throw (.notFound path)

def has (f : Folder) (path : String) : Bool := (f.find path).toOption.isSome

/-- One kind of line break for all kinds. -/
def plainBreaks : List Char → List Char
  | [] => []
  | '\r' :: '\n' :: rest => '\n' :: plainBreaks rest
  | c :: rest => (if c == '\r' then '\n' else c) :: plainBreaks rest

def read (f : Folder) (path : String) : Except FileProblem String := do
  match ← f.find path with
  | .file text => return String.ofList (plainBreaks text.toList)
  | _ => throw (.isFolder path)

/-- Puts a file into a folder that is there. -/
def put (f : Folder) (path : String) (file : Entry) : Except FileProblem Folder := do
  let place ← f.resolve path
  match f.entry? place with
  | some .folder => throw (.isFolder path)
  | _ => return ⟨f.entries.set (join "/" place) file⟩

def write (f : Folder) (path text : String) : Except FileProblem Folder := f.put path (.file text)

/-- Adds the folders on a path that are not there, from the place `place` on. -/
def addFolders (f : Folder) (path : String) (place : List String) :
    List String → Except FileProblem Folder
  | [] => .ok f
  | name :: rest =>
    if name == ".." then
      match around? place with
      | some outer => addFolders f path outer rest
      | none => .error (.notFound path)
    else
      let next := place ++ [name]
      match f.entry? next with
      | some .folder => addFolders f path next rest
      | some _ => .error (if rest.isEmpty then .exists path else .notFolder path)
      | none => addFolders ⟨f.entries.set (join "/" next) .folder⟩ path next rest

def makeFolders (f : Folder) (path : String) : Except FileProblem Folder :=
  f.addFolders path (startOf path) (Path.parts path)

/-- A folder with these files, and with a folder for every path without a text. -/
def ofFiles (files : List (String × Option String)) : Folder :=
  files.foldl (fun f e =>
    match e.2 with
    | none => ((f.makeFolders e.1).toOption).getD f
    | some text =>
      let f := ((f.makeFolders (Path.parent e.1)).toOption).getD f
      ((f.write e.1 text).toOption).getD f) {}

/-- The files that are new or differ, by path. -/
def changes (before after : Folder) : Table Entry :=
  (after.entries.filter fun e => e.2 != .folder && before.entries.get? e.1 != some e.2).mergeSort
    fun a b => a.1 ≤ b.1

end Folder

end ViewWriter
