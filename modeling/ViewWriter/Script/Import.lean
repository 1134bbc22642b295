import ViewWriter.Script.Piece

/-!
Import statements of scripts: reading them at line starts, and writing them.
-/

namespace ViewWriter.Script

open ViewWriter.Text

/-- A binding of `imported` under the name `local`. -/
structure Named where
  imported : String
  bound : String
  typeOnly : Bool
deriving DecidableEq, Repr

/-- What an import statement binds. -/
structure Clause where
  typeOnly : Bool
  default : Option String
  namespaceName : Option String
  named : List Named
  /-- the statement has braces, perhaps around nothing -/
  braces : Bool
deriving DecidableEq, Repr

structure Statement where
  indent : List Char
  clause : Clause
  quote : Char
  source : String
  semicolon : Bool
deriving DecidableEq, Repr

namespace Clause

/-- The names that the statement brings into the script. -/
def locals (c : Clause) : List String :=
  c.default.toList ++ c.namespaceName.toList ++ c.named.map (·.bound)

def isEmpty (c : Clause) : Bool := c.default.isNone && c.namespaceName.isNone && c.named.isEmpty

end Clause

/-- A text as a name, if it is an identifier. -/
def name? (cs : List Char) : Option String :=
  if isIdentifier cs then some (String.ofList cs) else none

/-- An item between the braces of a clause. -/
def Named.parse? (item : List Char) : Option Named :=
  match fields item with
  | [x] => (name? x).map fun x => ⟨x, x, false⟩
  | [t, x] => if t == "type".toList then (name? x).map fun x => ⟨x, x, true⟩ else none
  | [x, a, y] =>
    if a == "as".toList then do
      let x ← name? x
      let y ← name? y
      return ⟨x, y, false⟩
    else none
  | [t, x, a, y] =>
    if t == "type".toList && a == "as".toList then do
      let x ← name? x
      let y ← name? y
      return ⟨x, y, true⟩
    else none
  | _ => none

/-- The pieces between commas that are not blank, trimmed. -/
def listItems (cs : List Char) : List (List Char) :=
  ((splitOn ',' cs).map (trim isBlank)).filter (!·.isEmpty)

namespace Clause

/-- The name after `* as`. -/
def namespaceOf? (part : List Char) : Option String :=
  match stripPrefix? ['*'] part with
  | some rest =>
    match rest, fields rest with
    | c :: _, [a, x] => if isBlank c && a == "as".toList then name? x else none
    | _, _ => none
  | none => none

/-- Reads the default and namespace names before the braces. -/
def readHead (default namespaceName : Option String) :
    List (List Char) → Option (Option String × Option String)
  | [] => some (default, namespaceName)
  | part :: rest =>
    match namespaceOf? part, namespaceName with
    | some n, none => readHead default (some n) rest
    | _, _ =>
      match name? part, default with
      | some n, none => readHead (some n) namespaceName rest
      | _, _ => none

/-- The bindings of the text between `import` and `from`. -/
def parse? (text : List Char) : Option Clause := do
  let squeezed := squeezed text
  let (typeOnly, body) := match stripPrefix? "type ".toList squeezed with
    | some rest => (true, rest)
    | none => (false, squeezed)
  let (head, after) := cut '\x7b' body
  let named ← match after with
    | none => some []
    | some inside =>
      match cut '\x7d' inside with
      | (items, some tail) =>
        if tail.all isBlank then (listItems items).mapM Named.parse? else none
      | (_, none) => none
  let head := trimEnd (· == ',') (trim isBlank head)
  let (default, namespaceName) ← readHead none none (listItems head)
  if default.isNone && namespaceName.isNone && after.isNone then none
  return ⟨typeOnly, default, namespaceName, named, after.isSome⟩

end Clause

def isQuote (c : Char) : Bool := c == '\'' || c == '"'

/-- The text without the word `from` at its end and the white space on both sides of it. -/
def beforeFrom? (cs : List Char) : Option (List Char) :=
  let trimmed := trimEnd isBlank cs
  if trimmed.length == cs.length then none
  else match stripPrefix? "morf".toList trimmed.reverse with
    | some rest => some rest.reverse
    | none => none

/-- The clause in the text between `import` and the source. Nothing but white space is a clause too,
if there is enough of it, but it binds nothing. -/
def clauseText? (cs : List Char) : Option (List Char) := do
  let between ← beforeFrom? cs
  match between, between.getLast? with
  | first :: _, some last =>
    if !isBlank first || !isBlank last then none
    else
      let clause := trim isBlank between
      if clause.isEmpty && between.length < 3 then none else some clause
  | _, _ => none

/-- A text that looks like an import statement. It has no statement when it binds nothing that is
understood. -/
def importAt? (cs : List Char) : Option (Match (Option Statement)) := do
  let indent := cs.takeWhile isMargin
  let afterWord ← stripPrefix? "import".toList (cs.dropWhile isMargin)
  let between := afterWord.takeWhile fun c => !isQuote c && c != ';'
  let clause ← clauseText? between
  match afterWord.drop between.length with
  | quote :: inside =>
    if !isQuote quote then none
    else
      let source := inside.takeWhile fun c => !isQuote c
      match inside.drop source.length with
      | closing :: rest =>
        if closing != quote || source.isEmpty then none
        else
          let semicolon := rest.head? == some ';'
          let tail ← lineEnd? (if semicolon then rest.drop 1 else rest)
          let statement := (Clause.parse? clause).map fun c =>
            ⟨indent, c, quote, String.ofList source, semicolon⟩
          return ⟨statement, cs.take (cs.length - tail.rest.length), tail.rest⟩
      | [] => none
  | [] => none

namespace Named

def write (n : Named) : String :=
  let item := if n.imported == n.bound then n.imported else n.imported ++ " as " ++ n.bound
  if n.typeOnly then "type " ++ item else item

end Named

namespace Clause

def write (c : Clause) : String :=
  let braced := if c.named.isEmpty then []
    else ["\x7b " ++ join ", " (c.named.map Named.write) ++ " \x7d"]
  (if c.typeOnly then "type " else "")
    ++ join ", " (c.default.toList ++ (c.namespaceName.map ("* as " ++ ·)).toList ++ braced)

/-- The clause with only the bindings in `used`. -/
def restrict (used : String → Bool) (c : Clause) : Clause :=
  { c with
    default := c.default.filter used
    namespaceName := c.namespaceName.filter used
    named := c.named.filter fun n => used n.bound }

end Clause

namespace Statement

def write (s : Statement) : String :=
  String.ofList s.indent ++ "import " ++ s.clause.write ++ " from " ++ String.singleton s.quote
    ++ s.source ++ String.singleton s.quote ++ (if s.semicolon then ";" else "") ++ "\n"

end Statement

/-- The script in pieces, of which the import statements are found. -/
def importPieces (code : String) : List (Piece (Option Statement)) := pieces importAt? code.toList

def imports (code : String) : List (Statement × Nat × Nat) :=
  (found 0 (importPieces code)).filterMap fun (s, first, last) => s.map fun s => (s, first, last)

end ViewWriter.Script
