import ViewWriter.Bundle
import ViewWriter.CommandLine.Command
import ViewWriter.Document.Load
import ViewWriter.Generator.Request

/-!
Carrying out a command. A command that fails keeps what it has shown and written before.
-/

namespace ViewWriter.CommandLine

open ViewWriter.Document

/-- What is shown to the user. -/
inductive Item where
  | line (text : String)
  | panel (title text : String)
  | table (title : String) (columns : List String) (rows : List (List String))
deriving DecidableEq, Repr

structure Session where
  sources : Sources
  console : List Item := []

inductive Stop where
  | refused (text : String)
  | failed (f : Failure)

namespace Stop

/-- The line that tells the user why a command has stopped. Some failures are not the user's. -/
def line? : Stop → Option String
  | refused text => some ("[red]✗ Error:[/red] " ++ text)
  | failed f => match f, f.message? with
    | .load _, some text => some ("[red]✗ Failed to load input:[/red] " ++ text)
    | .weight _, _ => none
    | _, some text => some ("[red]✗ Generation failed:[/red] " ++ text)
    | _, none => none

def failure? : Stop → Option Failure
  | refused _ => none
  | failed f => some f

end Stop

abbrev Run := ExceptT Stop (StateM Session)

namespace Run

def say (item : Item) : Run Unit := modify fun s => { s with console := s.console ++ [item] }

def attempt {α : Type} : Except Failure α → Run α
  | .ok a => pure a
  | .error f => throw (.failed f)

def folder : Run Folder := do return (← get).sources.folder

def setFolder (f : Folder) : Run Unit :=
  modify fun s => { s with sources := { s.sources with folder := f } }

/-- Takes the folder that file operations have reached, even where the last one failed. -/
def files {ε : Type} (stop : ε → Stop) (a : Attempt Folder ε) : Run Unit := do
  setFolder a.state
  match a.failure with
  | none => pure ()
  | some e => throw (stop e)

end Run

open Run

def readConfig (folder : Folder) (path : String) : Except Stop (Table Json) :=
  let refused (reason : String) : Stop :=
    .refused ("Failed to load config file " ++ Path.clean path ++ ": " ++ reason)
  match folder.read path with
  | .error p => .error (refused p.message)
  | .ok text => match Json.read text with
    | .error e => .error (if e.isNotation then refused e.message else .failed (.fault .content))
    | .ok v => match v.table with
      | .ok fields => .ok fields
      | .error f => .error (.failed (.fault f))

/-- The settings that a command line gives; null where it gives none. -/
def givenSettings (folder : Folder) (s : Settings) : Except Stop Json := do
  if s.config == "" && !s.noComments then return .null
  let fields ← if s.config == "" then pure [] else readConfig folder s.config
  return .obj (if s.noComments then Table.set fields "add_comments" (.bool false) else fields)

def registry (s : Settings) : Run Registry := do
  let folder ← folder
  match givenSettings folder s with
  | .error stop => throw stop
  | .ok given => attempt (Registry.create folder .null (.layers given) .null)

def saveSettings (s : Settings) (r : Registry) (framework : Framework) : Run Unit := do
  if s.saveConfig == "" then return
  let g ← attempt (r.get framework)
  setFolder (← attempt (g.config.save (← folder) s.saveConfig))
  say (.line ("[green]✓[/green] Configuration saved to [cyan]" ++ s.saveConfig ++ "[/cyan]"))

def optionsOf (s : Settings) : Except Failure Options := do
  let framework ← Framework.parse (.str s.framework)
  return {
    framework := some framework
    typescript := .bool s.typescript
    description := .ofOption s.description
    isModule := .bool s.isModule
    optimize := .bool s.optimize
    lazyImports := .bool s.lazy }

def bundleOf (c : Code) : Run Bundle := do
  let name := Name.kebab (Json.member c.metadata "componentName").display
  let empty : Bundle := { name := if name == "" then ({} : Bundle).name else name }
  let a := empty.add c none
  match a.failure with
  | none => return a.state.bundle
  | some f => throw (.failed f)

def writeArchive (c : Code) (path : String) : Run Unit := do
  let b ← bundleOf c
  setFolder (← attempt (b.pack (← folder) path))
  say (.line ("[green]✓[/green] Bundle archive saved to [cyan]" ++ Path.clean path ++ "[/cyan]"))

def writeBundle (c : Code) (path : String) : Run Unit := do
  let b ← bundleOf c
  files (fun e => .failed (.bundle e)) (b.write (← folder) path)
  let written ← attempt (b.paths path)
  say (.line ("[green]✓[/green] Bundle with " ++ toString written.length
    ++ " files saved to [cyan]" ++ path ++ "[/cyan]"))

def unwritable (path : String) (p : FileProblem) : Stop :=
  .refused ("Failed to write to " ++ Path.clean path ++ ": " ++ p.message)

def writeFiles (c : Code) (path : String) : Run Unit := do
  files (unwritable path) (Attempt.single (← folder) ((← folder).makeFolders path))
  for e in c.files do
    if e.2.content != "" then
      let target := Path.below path e.2.name
      files (unwritable path) (Attempt.single (← folder) ((← folder).write target e.2.content))
      say (.line ("[green]✓[/green] Saved [cyan]" ++ target ++ "[/cyan]"))

def display (c : Code) : Run Unit := do
  for e in c.files do
    if e.2.content != "" then say (.panel ("📄 " ++ e.2.name) e.2.content)

def facts (c : Code) : Item :=
  .table "📊 Generation Metadata" ["Property", "Value"]
    (c.metadata.map fun e => [e.1, e.2.display])

/-- Writes or shows generated code, and tells what is unusual about it. -/
def deliver (verbose : Bool) (s : Settings) (c : Code) : Run Unit := do
  match s.output with
  | .archive path => writeArchive c path
  | .bundle path => writeBundle c path
  | .folder path => writeFiles c path
  | .display => display c
  if verbose && !c.metadata.isEmpty then say (facts c)
  if !c.warnings.isEmpty then
    say (.line "\n[yellow]⚠️  Warnings:[/yellow]")
    for w in c.warnings do
      say (.line ("  [yellow]•[/yellow] " ++ w))

def generateCode (verbose : Bool) (s : Settings) (subject : Subject) (o : Options) : Run Unit := do
  let r ← registry s
  saveSettings s r (o.framework.getD .react)
  deliver verbose s (← attempt (r.generate subject o).2)

def infoText (i : Registry.Info) : String :=
  Text.join "\n" [
    "[bold]Framework:[/bold] " ++ i.framework.key,
    "[bold]Main file:[/bold] " ++ i.mainFile,
    "[bold]Generator Class:[/bold] " ++ i.title,
    "[bold]Module:[/bold] " ++ i.place,
    "[bold]Helpers:[/bold] "
      ++ (if i.helpers.isEmpty then "none" else Text.join ", " i.helpers)]

def showFramework (r : Registry) (name : String) : Run Unit := do
  if !r.supports (.str name) then
    throw (.refused ("Framework '" ++ name ++ "' is not supported. Available: "
      ++ Text.join ", " (r.frameworks.map (·.key))))
  let i ← attempt (r.infoNamed (.str name))
  say (.panel ("🔧 " ++ i.framework.title ++ " Generator") (infoText i))

def showFrameworks (r : Registry) : Run Unit :=
  say (.table "📋 Supported Frameworks" ["Framework", "Main file", "Generator Class"]
    (r.generators.map fun g =>
      let i := r.info g
      ["🔧 " ++ i.framework.key, i.mainFile, i.title]))

def Command.run (verbose : Bool) : Command → Run Unit
  | .generate source name s => do
    let document ← attempt (load (← get).sources source)
    let o ← attempt (optionsOf s)
    generateCode verbose s (.component (.document document)) { o with componentName := .ofOption name }
  | .page sources name title s => do
    let sections ← attempt (loadSections (← get).sources sources)
    let o ← attempt (optionsOf s)
    generateCode verbose s (.page (sections.map .document))
      { o with pageName := .ofOption name, pageTitle := .ofOption title }
  | .frameworks name => do
    let r ← attempt Registry.builtIn
    if name == "" then showFrameworks r else showFramework r name

structure Outcome where
  exit : Nat
  console : List Item
  folder : Folder

/-- Carries out a command line. Without a command there is nothing to do. -/
def run (s : Sources) (words : List String) : Except Failure Outcome :=
  match Invocation.read words with
  | .error e => .ok ⟨e.code, [], s.folder⟩
  | .ok ⟨_, none⟩ => .ok ⟨1, [], s.folder⟩
  | .ok ⟨verbose, some c⟩ =>
    match ((c.run verbose).run { sources := s }).run with
    | (.ok (), session) => .ok ⟨0, session.console, session.sources.folder⟩
    | (.error stop, session) =>
      match stop.line?, stop.failure? with
      | none, some f => .error f
      | line, _ => .ok ⟨1, session.console ++ (line.map Item.line).toList, session.sources.folder⟩

end ViewWriter.CommandLine
