import ViewWriter.Json.Printer
import ViewWriter.Text.Character

/-!
Component trees and their document form.
-/

namespace ViewWriter

inductive SchemaError where
  | notObject (kind : String)
  | missingId (node : String)
  | missingType (id : String)
  | badMember (name id : String)
  | badChildren (id : String)
  | duplicateId (id : String)
  | unknownId (id : String)
  | duplicateCopies
  | idsPresent (ids : List String)
  | unknownParent (id : String)
  | sectionRoots
  /-- a node that is not found among the siblings it should be in -/
  | noSibling (id : String)
deriving DecidableEq, Repr

namespace SchemaError

def message : SchemaError → String
  | notObject kind => "Schema node must be an object, got " ++ kind
  | missingId node => "Schema node is missing an 'id': " ++ node
  | missingType id => "Schema node '" ++ id ++ "' is missing a 'type'"
  | badMember name id => "'" ++ name ++ "' of node '" ++ id ++ "' must be an object"
  | badChildren id => "'children' of node '" ++ id ++ "' must be a list"
  | duplicateId id => "Duplicate node id: " ++ id
  | unknownId id => "Unknown node id: " ++ id
  | duplicateCopies => "id_factory produced duplicate ids"
  | idsPresent ids => "Subtree ids already present: " ++ Text.quotedList ids
  | unknownParent id => "Unknown parent id: " ++ id
  | sectionRoots => "Each page section must hold exactly one root"
  | noSibling id => "Not among its siblings: " ++ id

end SchemaError

namespace Schema

/-- What a node holds besides its place in the tree. Null content is no content. -/
structure Record where
  id : String
  type : String
  props : Table Json
  style : Table Json
  content : Json

/-- Custom components have type names with a capital. -/
def Record.isCustom (r : Record) : Bool :=
  match r.type.toList with
  | [] => false
  | c :: _ => Text.isUppercase c

inductive Tree where
  | node (record : Record) (children : List Tree)

namespace Tree

def record : Tree → Record
  | node r _ => r

def children : Tree → List Tree
  | node _ cs => cs

/-- A member that is an object; one that does not count as given is empty. -/
def objectMember (fields : Table Json) (name id : String) : Except SchemaError (Table Json) :=
  match (Json.member fields name).orElse (.obj []) with
  | .obj members => .ok members
  | _ => .error (.badMember name id)

def recordOf (fields : Table Json) : Except SchemaError Record :=
  let id := Json.member fields "id"
  match id with
  | .null | .str "" => .error (.missingId (Json.obj fields).quoted)
  | _ =>
    let id := id.display
    match Json.member fields "type" with
    | .str type =>
      if type == "" then .error (.missingType id)
      else do
        let props ← objectMember fields "props" id
        let style ← objectMember fields "style" id
        return ⟨id, type, props, style, Json.member fields "content"⟩
    | _ => .error (.missingType id)

theorem sizeOf_lookup {fields : List (String × Json)} {key : String} {v : Json}
    (h : fields.lookup key = some v) : sizeOf v < sizeOf fields := by
  induction fields with
  | nil => simp at h
  | cons e rest ih =>
    obtain ⟨k, w⟩ := e
    rw [← Table.get?, Table.get?_cons] at h
    split at h
    · simp only [Option.some.injEq] at h
      subst h
      simp only [List.cons.sizeOf_spec, Prod.mk.sizeOf_spec]
      omega
    · have := ih h
      simp only [List.cons.sizeOf_spec]
      omega

mutual

def ofJson : Json → Except SchemaError Tree
  | .obj fields => do
    let r ← recordOf fields
    match _h : fields.lookup "children" with
    | some (.arr items) => return node r (← ofItems items)
    | some v => if v.isGiven then throw (.badChildren r.id) else return node r []
    | none => return node r []
  | v => .error (.notObject v.kind)
  termination_by v => sizeOf v
  decreasing_by
    have := sizeOf_lookup _h
    simp only [Json.arr.sizeOf_spec] at this
    simp only [Json.obj.sizeOf_spec]
    omega

def ofItems : List Json → Except SchemaError (List Tree)
  | [] => .ok []
  | v :: rest => do
    let t ← ofJson v
    let ts ← ofItems rest
    return t :: ts
  termination_by vs => sizeOf vs

end

def optional (key : String) (given : Bool) (value : Json) : List (String × Json) :=
  if given then [(key, value)] else []

mutual

def toJson : Tree → Json
  | node r cs =>
    .obj ([("id", .str r.id), ("type", .str r.type)]
      ++ optional "props" (!r.props.isEmpty) (.obj r.props)
      ++ optional "style" (!r.style.isEmpty) (.obj r.style)
      ++ optional "children" (!cs.isEmpty) (.arr (toItems cs))
      ++ optional "content" (!r.content.isNull) r.content)

def toItems : List Tree → List Json
  | [] => []
  | t :: rest => toJson t :: toItems rest

end

mutual

/-- The records of a tree, each before those below it. -/
def records : Tree → List Record
  | node r cs => r :: recordsOf cs

def recordsOf : List Tree → List Record
  | [] => []
  | t :: rest => records t ++ recordsOf rest

end

end Tree

end Schema

end ViewWriter
