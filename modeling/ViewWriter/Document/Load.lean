import ViewWriter.Document.Address
import ViewWriter.Failure

/-!
Schema documents from files and from the web. A document is an object or a list of objects.
-/

namespace ViewWriter.Document

/-- What comes back from a request. -/
inductive Reply where
  | answer (status : Int) (body : String)
  | timeout
  | noConnection
  /-- an error status that is not told -/
  | refused
  | failed (reason : String)
  | unreadable (reason : String)
deriving DecidableEq, Repr

/-- Where documents come from: files by path and replies by address. -/
structure Sources where
  folder : Folder := {}
  replies : Table Reply := []

def isErrorStatus (status : Int) : Bool := 400 ≤ status && status < 600

def Reply.document (url : String) : Reply → Except LoadError Json
  | answer status body =>
    if isErrorStatus status then .error (.status url (some status))
    else match Json.read body with
      | .ok v => .ok v
      | .error e => .error (if e.isNotation then .request url e.message else .notJson url e.message)
  | timeout => .error (.timeout url)
  | noConnection => .error (.noConnection url)
  | refused => .error (.status url none)
  | failed reason => .error (.request url reason)
  | unreadable reason => .error (.notJson url reason)

namespace Sources

/-- The document at an address; there is no connection to one that is not known. -/
def fetch (s : Sources) (url : String) (a : Address) : Except LoadError Json :=
  if a.authority.isEmpty then .error (.badAddress url)
  else ((s.replies.get? url).getD .noConnection).document url

def readFile (s : Sources) (path : String) : Except Failure Json :=
  let shown := Path.clean path
  if !s.folder.has path then throw (.load (.notFound shown))
  else match s.folder.read path with
    | .error p => throw (.load (.unreadable shown p))
    | .ok text => match Json.read text with
      | .ok v => return v
      | .error e => throw (if e.isNotation then .load (.invalid shown e) else .fault .content)

end Sources

def isObject : Json → Bool
  | .obj _ => true
  | _ => false

/-- Refuses a value that is no schema document. -/
def check (source : String) (v : Json) : Except LoadError Json :=
  let good := match v with
    | .obj _ => true
    | .arr items => items.all isObject
    | _ => false
  if good then .ok v else .error (.notSchema source v.kind)

def load (s : Sources) (source : String) : Except Failure Json := do
  let a ← Address.parse source
  let v ← if a.isWeb then liftM (s.fetch source a) else s.readFile source
  check source v

def sectionsOf : Json → List Json
  | .arr items => items
  | v => [v]

def loadSections (s : Sources) (sources : List String) : Except Failure (List Json) := do
  let documents ← sources.mapM (load s)
  match documents.flatMap sectionsOf with
  | [] => throw (.load .noSections)
  | sections => return sections

end ViewWriter.Document
