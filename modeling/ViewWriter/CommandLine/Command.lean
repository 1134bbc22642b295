import ViewWriter.CommandLine.Option

/-!
The commands that a command line can ask for.
-/

namespace ViewWriter.CommandLine

/-- Where generated code goes. -/
inductive Output where
  | display
  | folder (path : String)
  | bundle (path : String)
  | archive (path : String)
deriving DecidableEq, Repr

structure Settings where
  framework : String
  typescript : Bool
  description : Option String
  isModule : Bool
  optimize : Bool
  lazy : Bool
  /-- the path of a file with settings; empty for none -/
  config : String
  noComments : Bool
  /-- where the settings are saved; empty for nowhere -/
  saveConfig : String
  output : Output
deriving DecidableEq, Repr

inductive Command where
  | generate (source : String) (name : Option String) (s : Settings)
  | page (sources : List String) (name title : Option String) (s : Settings)
  /-- an empty name asks for all frameworks -/
  | frameworks (name : String)
deriving DecidableEq, Repr

structure Invocation where
  verbose : Bool
  command : Option Command
deriving DecidableEq, Repr

namespace Command

def settings? : Command → Option Settings
  | generate _ _ s => some s
  | page _ _ _ s => some s
  | frameworks _ => none

def sources : Command → List String
  | generate source _ _ => [source]
  | page sources _ _ _ => sources
  | frameworks _ => []

end Command

def Output.path? : Output → Option String
  | display => none
  | folder path => some path
  | bundle path => some path
  | archive path => some path

/-- The paths that settings name. -/
def Settings.paths (s : Settings) : List String :=
  [s.config, s.saveConfig] ++ s.output.path?.toList

def Command.paths (c : Command) : List String :=
  c.sources ++ (c.settings?.map Settings.paths).getD []

namespace Invocation

def helpSwitch : Switch := ⟨"help", ["-h", "--help"], .help⟩

def flag (key : String) (spellings : List String) : Switch := ⟨key, spellings, .flag⟩

def value (key : String) (spellings : List String) : Switch := ⟨key, spellings, .value⟩

def outerForm : Form where
  switches := [helpSwitch, flag "verbose" ["--verbose", "-v"]]
  operands := .command

def generationSwitches : List Switch := [
  helpSwitch,
  value "framework" ["--framework", "-f"],
  flag "typescript" ["--typescript", "--ts"],
  value "description" ["--description"],
  flag "module" ["--module"],
  flag "optimize" ["--optimize"],
  flag "lazy" ["--lazy"],
  value "config" ["--config"],
  flag "noComments" ["--no-comments"],
  value "saveConfig" ["--save-config"],
  value "output" ["--output", "-o"],
  value "bundle" ["--bundle"],
  value "zip" ["--zip"]]

def outputKeys : List String := ["output", "bundle", "zip"]

def generateForm : Form where
  switches := generationSwitches ++ [value "name" ["--name"]]
  operands := .one
  exclusive := outputKeys

def pageForm : Form where
  switches := generationSwitches ++ [value "pageName" ["--page-name"], value "title" ["--title"]]
  operands := .many
  exclusive := outputKeys

def frameworksForm : Form where
  switches := [helpSwitch, value "info" ["--info"]]
  operands := .none

/-- A value that is there and not empty. -/
def given? (p : Parsed) (key : String) : Option String := (p.get? key).filter (· != "")

def givenText (p : Parsed) (key : String) : String := (p.get? key).getD ""

def outputOf (p : Parsed) : Output :=
  match given? p "zip", given? p "bundle", given? p "output" with
  | some path, _, _ => .archive path
  | none, some path, _ => .bundle path
  | none, none, some path => .folder path
  | none, none, none => .display

def defaultFramework : String := "react"

def settingsOf (p : Parsed) : Settings where
  framework := (given? p "framework").getD defaultFramework
  typescript := p.has "typescript"
  description := p.get? "description"
  isModule := p.has "module"
  optimize := p.has "optimize"
  lazy := p.has "lazy"
  config := givenText p "config"
  noComments := p.has "noComments"
  saveConfig := givenText p "saveConfig"
  output := outputOf p

/-- The command of a name and its words, and whether words are left over. -/
def readCommand (name : String) (words : List String) : Except Exit (Command × Bool) := do
  match name with
  | "generate" =>
    let p ← generateForm.read words
    let source := p.operands.headD ""
    return (.generate source (p.get? "name") (settingsOf p), p.excess)
  | "page" =>
    let p ← pageForm.read words
    return (.page p.operands (p.get? "pageName") (p.get? "title") (settingsOf p), p.excess)
  | "frameworks" =>
    let p ← frameworksForm.read words
    return (.frameworks (givenText p "info"), p.excess)
  | _ => throw .usage

/-- Reads a command line. Words that nothing takes are refused at last. -/
def read (words : List String) : Except Exit Invocation := do
  let p ← outerForm.read words
  let verbose := p.has "verbose"
  let (command, excess) ← match p.operands with
    | [] => pure (none, false)
    | name :: rest => do
      let (c, excess) ← readCommand name rest
      pure (some c, excess)
  if p.excess || excess then throw .usage
  return { verbose, command }

end Invocation

def pathsOf (words : List String) : List String :=
  match Invocation.read words with
  | .ok ⟨_, some c⟩ => c.paths
  | _ => []

end ViewWriter.CommandLine
