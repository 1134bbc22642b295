import ViewWriter.Schema.Tree

/-!
Arenas: the nodes of one or more trees in one table, and their links in two more. Every operation
makes a new arena.
-/

namespace ViewWriter.Schema

/-- Nodes, the ids below each of them and the id above it, all by id. -/
structure Arena where
  nodes : Table Record
  children : Table (List String)
  parents : Table (Option String)
  roots : List String

/-- What an arena is made from: a document, a tree or another arena. -/
inductive Source where
  | document (v : Json)
  | tree (t : Tree)
  | arena (a : Arena)

/-- An arena is no document. -/
def Source.toTree : Source → Except SchemaError Tree
  | document v => Tree.ofJson v
  | tree t => .ok t
  | arena _ => .error (.notObject "SchemaArena")

namespace Arena

def size (a : Arena) : Nat := a.nodes.length

def has (a : Arena) (id : String) : Bool := a.nodes.has id

def ids (a : Arena) : List String := a.nodes.keys

def node (a : Arena) (id : String) : Except SchemaError Record :=
  match a.nodes.get? id with
  | some r => .ok r
  | none => .error (.unknownId id)

def childrenOf (a : Arena) (id : String) : List String := (a.children.get? id).getD []

def parentOf (a : Arena) (id : String) : Option String := (a.parents.get? id).join

/-- Adds a node with the ids of what is to come below it. -/
def addNode (parent : Option String) (a : Arena) (r : Record) (below : List String) :
    Except SchemaError Arena :=
  if a.has r.id then .error (.duplicateId r.id)
  else .ok { a with
    nodes := a.nodes.set r.id r
    parents := a.parents.set r.id parent
    children := a.children.set r.id below }

mutual

/-- Adds a tree below `parent`, each node before its children. -/
def addTree (parent : Option String) (a : Arena) : Tree → Except SchemaError Arena
  | .node r cs => do
    let a ← addNode parent a r (cs.map (·.record.id))
    addTrees (some r.id) a cs

def addTrees (parent : Option String) (a : Arena) : List Tree → Except SchemaError Arena
  | [] => .ok a
  | t :: rest => do
    let a ← addTree parent a t
    addTrees parent a rest

end

def empty : Arena := ⟨[], [], [], []⟩

def addRoot (a : Arena) (t : Tree) : Except SchemaError Arena := do
  let a ← addTree none a t
  return { a with roots := a.roots ++ [t.record.id] }

def addSource (a : Arena) (s : Source) : Except SchemaError Arena := do
  let t ← s.toTree
  a.addRoot t

/-- One root for each source. -/
def ofSources (sources : List Source) : Except SchemaError Arena := sources.foldlM addSource empty

def ofDocuments (documents : List Json) : Except SchemaError Arena :=
  ofSources (documents.map .document)

/-- Visits the ids in `pending` from the first on, those below an id before the others, in at most
`limit` visits. -/
def walkFrom (a : Arena) (limit : Nat) (pending : List String) : Except SchemaError (List Record) :=
  match limit, pending with
  | 0, _ => .ok []
  | _, [] => .ok []
  | limit + 1, id :: pending => do
    let r ← a.node id
    let rest ← a.walkFrom limit (a.childrenOf id ++ pending)
    return r :: rest

/-- The records below and at `id`, each before its children. No node is visited twice. -/
def walkAt (a : Arena) (id : String) : Except SchemaError (List Record) :=
  a.walkFrom a.size.succ [id]

/-- All records, root by root. -/
def walk (a : Arena) : Except SchemaError (List Record) := a.walkFrom a.size.succ a.roots

def treeFrom (a : Arena) (depth : Nat) (id : String) : Except SchemaError Tree :=
  match depth with
  | 0 => .error (.unknownId id)
  | depth + 1 => do
    let r ← a.node id
    let below ← (a.childrenOf id).mapM (a.treeFrom depth)
    return .node r below

/-- The tree below and at `id`. -/
def toTree (a : Arena) (id : String) : Except SchemaError Tree := a.treeFrom a.size.succ id

/-- The id that a copy gets when nothing else is asked for. -/
def copyId (id : String) : String := id ++ "-copy"

/-- A copy of the tree at `id` as an arena of its own, with new ids. A parent without an id counts as
none. -/
def copySubtree (a : Arena) (id : String) (rename : String → String := copyId) :
    Except SchemaError Arena := do
  let records ← a.walkAt id
  let newIds := records.map fun r => rename r.id
  if newIds.eraseDups.length != newIds.length then throw .duplicateCopies
  let parent (r : Record) : Option String :=
    if r.id == id then none else ((a.parentOf r.id).filter (· != "")).map rename
  return {
    nodes := Table.ofEntries (records.map fun r => (rename r.id, { r with id := rename r.id }))
    children := Table.ofEntries (records.map fun r => (rename r.id, (a.childrenOf r.id).map rename))
    parents := Table.ofEntries (records.map fun r => (rename r.id, parent r))
    roots := [rename id] }

/-- The place that a position counted from either end stands for. -/
def place (length : Nat) : Option Int → Nat
  | none => length
  | some i => if i < 0 then (i + length).toNat else min i.toNat length

def insertAt {α : Type} (xs new : List α) (position : Option Int) : List α :=
  let n := place xs.length position
  xs.take n ++ new ++ xs.drop n

/-- Puts the roots of `b` below `parent`, or among the roots. -/
def withSubtree (a b : Arena) (parent : Option String) (position : Option Int) :
    Except SchemaError Arena :=
  let clash := b.ids.filter a.has
  if !clash.isEmpty then .error (.idsPresent clash.mergeSort)
  else
    let both : Arena := {
      nodes := a.nodes.merge b.nodes
      children := a.children.merge b.children
      parents := a.parents.merge b.parents
      roots := a.roots }
    match parent with
    | none => .ok { both with roots := insertAt a.roots b.roots position }
    | some p =>
      if !a.has p then .error (.unknownParent p)
      else .ok { both with
        children := both.children.set p (insertAt (both.childrenOf p) b.roots position)
        parents := both.parents.merge (b.roots.map fun root => (root, some p)) }

/-- Puts a copy of the tree at `id` right after it. -/
def duplicate (a : Arena) (id : String) (rename : String → String := copyId) :
    Except SchemaError Arena := do
  let copy ← a.copySubtree id rename
  let parent := a.parentOf id
  let siblings := match parent with
    | some p => a.childrenOf p
    | none => a.roots
  match siblings.findIdx? (· == id) with
  | some n => a.withSubtree copy parent (some (n + 1))
  | none => throw (.noSibling id)

/-- A single source as an arena; an arena stays what it is. -/
def ofSource : Source → Except SchemaError Arena
  | .arena a => .ok a
  | s => ofSources [s]

def pageRoot : String := "page-root"
def pageType : String := "main"

/-- Puts a section below the root of a page. -/
def addSection (root : String) (a : Arena) (s : Source) : Except SchemaError Arena := do
  let part ← ofSource s
  if part.roots.length != 1 then throw .sectionRoots
  a.withSubtree part (some root) none

def ofRecord (r : Record) : Arena := ⟨[(r.id, r)], [(r.id, [])], [(r.id, none)], [r.id]⟩

/-- The sections below a root of their own. -/
def wrap (sections : List Source) (root : String := pageRoot) (type : String := pageType) :
    Except SchemaError Arena :=
  sections.foldlM (addSection root) (ofRecord ⟨root, type, [], [], .null⟩)

end Arena

end ViewWriter.Schema
