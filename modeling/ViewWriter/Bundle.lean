import ViewWriter.Attempt
import ViewWriter.Code
import ViewWriter.Failure
import ViewWriter.Json.Printer

/-!
Bundles: generated files from several requests in one project, with the files that describe it.
-/

namespace ViewWriter

open ViewWriter.Text

structure BundleEntry where
  path : String
  content : String
  framework : Framework
  kind : String
deriving DecidableEq, Repr

structure Bundle where
  name : String := "ui-bundle"
  version : String := "0.1.0"
  description : String := ""
  entries : List BundleEntry := []
  frameworks : List Framework := []

namespace Bundle

def packages : Framework → Table String
  | .react => [("react", "^18.2.0"), ("react-dom", "^18.2.0")]
  | .vue => [("vue", "^3.4.0")]
  | .angular => [("@angular/common", "^17.0.0"), ("@angular/core", "^17.0.0"),
      ("@angular/platform-browser", "^17.0.0")]
  | .html => []

def dependencies (b : Bundle) : Table String :=
  (b.frameworks.map packages).foldl Table.merge []

def find? (b : Bundle) (path : String) : Option BundleEntry :=
  b.entries.find? fun e => e.path == path

def folderOf (c : Code) : Except Fault String := do
  let kind := if (Json.member c.metadata "page").isGiven then "pages" else "components"
  let given := Json.member c.metadata "componentName"
  let name ← if given.isGiven then pure given.display
    else match c.files.get? "main" with
      | some a => pure (String.ofList (a.name.toList.takeWhile (· != '.')))
      | none => throw .key
  return join "/" ["src", kind, name]

/-- A bundle with the paths that were just added. -/
structure Addition where
  bundle : Bundle
  added : List String

/-- Adds a file. A blank one is passed over, and so is one that is there already. -/
def addFile (framework : Framework) (folder : String) (a : Addition) (e : String × Artifact) :
    Except BundleError Addition :=
  let file := e.2
  let path := if folder == "" then file.name else folder ++ "/" ++ file.name
  if file.content.toList.all isBlank then .ok a
  else match a.bundle.find? path with
    | some old => if old.content == file.content then .ok a else .error (.taken path)
    | none =>
      let entries := a.bundle.entries ++ [⟨path, file.content, framework, e.1⟩]
      .ok ⟨{ a.bundle with entries }, a.added ++ [path]⟩

/-- Adds the files of one request, into the folder for them where none is given. -/
def add (b : Bundle) (c : Code) (folder : Option String) : Attempt Addition Failure :=
  let start : Addition := ⟨b, []⟩
  match folder.elim (folderOf c) Except.ok with
  | .error f => ⟨start, some (.fault f)⟩
  | .ok folder =>
    let folder := String.ofList (trim (· == '/') folder.toList)
    let filled := Attempt.each (addFile c.framework folder) start c.files
    match filled.failure with
    | some e => ⟨filled.state, some (.bundle e)⟩
    | none =>
      let ⟨b, added⟩ := filled.state
      let frameworks := if b.frameworks.contains c.framework then b.frameworks
        else b.frameworks ++ [c.framework]
      ⟨⟨{ b with frameworks }, added⟩, none⟩

def sorted (b : Bundle) : List BundleEntry := b.entries.mergeSort fun x y => x.path ≤ y.path

def isMarkupChar (c : Char) : Bool := c == '<' || c == '>' || c == '&' || c == '\''

/-- A text as data that may stand inside markup too. -/
def embedded (s : String) : String :=
  String.ofList ((Json.literal .ascii s).toList.flatMap fun c =>
    if isMarkupChar c then Json.unitEscape c.toNat else [c])

def aboutText (b : Bundle) : String :=
  if b.description == "" then "Components generated by ui-codegen." else b.description

def packageFile (b : Bundle) : String :=
  let names := b.dependencies.mergeSort fun x y => x.1 ≤ y.1
  let needed := names.map fun e => "    " ++ embedded e.1 ++ ": " ++ embedded e.2
  concat [
    "\x7b\n",
    "  \"name\": ", embedded b.name, ",\n",
    "  \"version\": ", embedded b.version, ",\n",
    "  \"private\": true,\n",
    "  \"type\": \"module\",\n",
    "  \"description\": ", embedded b.aboutText, ",\n",
    "  \"dependencies\": \x7b\n",
    join ",\n" needed, if needed.isEmpty then "" else "\n",
    "  \x7d\n",
    "\x7d\n"]

def entryLine (e : BundleEntry) : String :=
  "- `" ++ e.path ++ "` (" ++ e.framework.key ++ " " ++ e.kind ++ ")\n"

def installLines : String := "\n## Install\n\n```sh\nnpm install\n```\n"

def readmeFile (b : Bundle) : String :=
  concat [
    "# ", b.name, "\n\n", b.aboutText, "\n\n## Contents\n\n",
    concat (b.sorted.map entryLine),
    if b.dependencies.isEmpty then "" else installLines]

def scaffold (b : Bundle) : Table String :=
  [("package.json", b.packageFile), ("README.md", b.readmeFile)]

def files (b : Bundle) : Except BundleError (Table String) :=
  let own : Table String := b.sorted.map fun e => (e.path, e.content)
  if own.isEmpty then .error .empty
  else match b.scaffold.find? fun e => own.has e.1 with
    | some e => .error (.scaffold e.1)
    | none => .ok (own ++ b.scaffold)

def writeFile (root : String) (f : Folder) (file : String × String) : Except FileProblem Folder := do
  let path := Path.below root file.1
  let f ← f.makeFolders (Path.parent path)
  f.write path file.2

def write (b : Bundle) (f : Folder) (root : String) : Attempt Folder BundleError :=
  match b.files with
  | .error e => ⟨f, some e⟩
  | .ok files =>
    Attempt.each (fun f e => (writeFile root f e).mapError (.unwritable (Path.clean root))) f files

def paths (b : Bundle) (root : String) : Except BundleError (List String) :=
  b.files.map fun files => files.map fun e => Path.below root e.1

/-- Writes all files into one archive, below the name of the bundle. -/
def pack (b : Bundle) (f : Folder) (path : String) : Except BundleError Folder := do
  let files ← b.files
  let packed := files.map fun e => (b.name ++ "/" ++ e.1, e.2)
  (f.put path (.archive packed)).mapError (.unwritableArchive (Path.clean path))

end Bundle

end ViewWriter
