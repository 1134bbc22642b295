import ViewWriter.Fault
import ViewWriter.Framework
import ViewWriter.Number.Basic
import ViewWriter.Script.Import

/-!
Imports of components that are loaded at once or when they are first used, by their weight.
-/

namespace ViewWriter.Script

open ViewWriter.Text

/-- An import whose weight tells how much of a page needs it. -/
structure WeightedImport where
  name : String
  source : String
  weight : Number
deriving DecidableEq, Repr

/-- A weight outside `[0, 1]`. -/
structure BadWeight where
  name : String
  weight : String
deriving DecidableEq, Repr

def BadWeight.message (e : BadWeight) : String :=
  "Import weight for '" ++ e.name ++ "' must be within [0, 1]: " ++ e.weight

namespace WeightedImport

def make (name source : String) (weight : Number) : Except BadWeight WeightedImport :=
  if (Number.int 0).le weight && weight.le (.int 1) then .ok ⟨name, source, weight⟩
  else .error ⟨name, weight.write .plain⟩

/-- Whether the import is loaded at once. -/
def isEager (threshold : Number) (i : WeightedImport) : Bool := threshold.lt i.weight

/-- Heavier imports first; imports of one weight stay in order. -/
def ordered (imports : List WeightedImport) : List WeightedImport :=
  imports.mergeSort fun a b => b.weight.le a.weight

end WeightedImport

/-- The import of the function that loads components later. -/
def primitive? : Framework → Option String
  | .react => some "import \x7b lazy \x7d from 'react';"
  | .vue => some "import \x7b defineAsyncComponent \x7d from 'vue';"
  | _ => none

def eagerLine (framework : Framework) (i : WeightedImport) : String :=
  match framework with
  | .angular => "import \x7b " ++ i.name ++ " \x7d from '" ++ i.source ++ "';"
  | _ => "import " ++ i.name ++ " from '" ++ i.source ++ "';"

def lazyLine (framework : Framework) (i : WeightedImport) : String :=
  let loader := "() => import('" ++ i.source ++ "')"
  "const " ++ i.name ++ " = " ++ match framework with
    | .react => "lazy(" ++ loader ++ ");"
    | .vue => "defineAsyncComponent(" ++ loader ++ ");"
    | .angular => loader ++ ".then((module) => module." ++ i.name ++ ");"
    | .html => loader ++ ".then((module) => module.default);"

def blockLines (framework : Framework) (threshold : Number) (imports : List WeightedImport) :
    List String :=
  let sorted := WeightedImport.ordered imports
  let first := if sorted.all (·.isEager threshold) then [] else (primitive? framework).toList
  first ++ sorted.map fun i =>
    if i.isEager threshold then eagerLine framework i else lazyLine framework i

def block (framework : Framework) (threshold : Number) (indent : String)
    (imports : List WeightedImport) : String :=
  concat ((blockLines framework threshold imports).map fun l => indent ++ l ++ "\n")

/-- The only name that a plain component import binds. -/
def componentBinding? (framework : Framework) (c : Clause) : Option String :=
  if c.typeOnly || c.namespaceName.isSome then none
  else match framework with
    | .angular =>
      match c.default, c.named with
      | none, [n] => if n.imported == n.bound && !n.typeOnly then some n.bound else none
      | _, _ => none
    | _ => if c.braces then none else c.default

/-- A line that loads a component later. -/
structure LazyLine where
  indent : List Char
  name : String
  source : String

/-- A source between quotes, followed by a closing text. -/
def quotedSource? (closing : String) (cs : List Char) : Option (List Char × List Char) :=
  let source := cs.takeWhile (· != '\'')
  if source.isEmpty then none
  else (stripPrefix? closing.toList (cs.drop source.length)).map fun rest => (source, rest)

/-- The member name that ends a loader. -/
def loaderMember? (r : List Char × List Char) : Option (List Char × List Char) :=
  let member := r.2.takeWhile isIdentifierPart
  if member.isEmpty then none
  else (stripPrefix? [')'] (r.2.drop member.length)).map fun rest => (r.1, rest)

/-- The source in a call that loads a component later, and what follows the call. -/
def loader? (cs : List Char) : Option (List Char × List Char) :=
  match stripPrefix? "lazy(() => import('".toList cs with
  | some rest => quotedSource? "'))" rest
  | none => match stripPrefix? "defineAsyncComponent(() => import('".toList cs with
    | some rest => quotedSource? "'))" rest
    | none => match stripPrefix? "() => import('".toList cs with
      | some rest => (quotedSource? "').then((module) => module." rest).bind loaderMember?
      | none => none

def lazyLineAt? (cs : List Char) : Option (Match LazyLine) := do
  let indent := cs.takeWhile isMargin
  let rest ← stripPrefix? "const ".toList (cs.dropWhile isMargin)
  let name := rest.takeWhile isIdentifierPart
  if !isIdentifier name then none
  let rest ← stripPrefix? " = ".toList (rest.drop name.length)
  let (source, rest) ← loader? rest
  let rest ← stripPrefix? [';'] rest
  let tail ← lineEnd? rest
  return ⟨⟨indent, String.ofList name, String.ofList source⟩,
    cs.take (cs.length - tail.rest.length), tail.rest⟩

/-- A line that holds a given text and nothing else. -/
def textLineAt? (text : String) (cs : List Char) : Option (Match (List Char)) := do
  let indent := cs.takeWhile isMargin
  let rest ← stripPrefix? text.toList (cs.dropWhile isMargin)
  let tail ← lineEnd? rest
  return ⟨indent, cs.take (cs.length - tail.rest.length), tail.rest⟩

/-- An import or a lazy line of a known component, with its place. -/
def knownSpan? (weights : Table WeightedImport) (name source : String) (span : Span) :
    Option (WeightedImport × Span) :=
  match weights.get? name with
  | some i => if i.source == source then some (i, span) else none
  | none => none

def importSpans (framework : Framework) (weights : Table WeightedImport) (code : String) :
    List (WeightedImport × Span) :=
  (imports code).filterMap fun (s, first, last) =>
    (componentBinding? framework s.clause).bind fun name =>
      knownSpan? weights name s.source ⟨first, last, s.indent⟩

def lazySpans (weights : Table WeightedImport) (code : String) : List (WeightedImport × Span) :=
  (found 0 (pieces lazyLineAt? code.toList)).filterMap fun (l, first, last) =>
    knownSpan? weights l.name l.source ⟨first, last, l.indent⟩

def primitiveSpans (framework : Framework) (code : String) : List Span :=
  match primitive? framework with
  | none => []
  | some text =>
    (found 0 (pieces (textLineAt? text) code.toList)).map fun (indent, first, last) =>
      ⟨first, last, indent⟩

/-- The text without the stretches, of which the last is taken out first. -/
def removeSpans (cs : List Char) (spans : List Span) : List Char :=
  spans.foldr (fun s left => left.take s.first ++ left.drop s.last) cs

/-- One entry for each name, at its first place. -/
def distinct (imports : List WeightedImport) : List WeightedImport :=
  imports.foldl (fun seen i => if seen.any (·.name == i.name) then seen else seen ++ [i]) []

/-- The script with its known component imports as one block in the place of the first of them.
The threshold is not looked at where there are none. -/
def regroupLoading (framework : Framework) (threshold : Except Fault Number)
    (weights : Table WeightedImport) (code : String) : Except Fault String :=
  let known := importSpans framework weights code ++ lazySpans weights code
  let spans := (known.map (·.2) ++ primitiveSpans framework code).mergeSort
    fun a b => a.first ≤ b.first
  match spans with
  | [] => .ok code
  | s :: rest =>
    if known.isEmpty then .ok code
    else do
      let block := block framework (← threshold) (String.ofList s.indent) (distinct (known.map (·.1)))
      let left := removeSpans code.toList (s :: rest)
      return String.ofList (left.take s.first ++ block.toList ++ left.drop s.first)

end ViewWriter.Script
