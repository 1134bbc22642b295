import ViewWriter.Name.Case
import ViewWriter.Script.Import

/-!
Names that a script uses, and import statements without the bindings that it does not use.
-/

namespace ViewWriter.Script

open ViewWriter.Text

/-- The identifiers in a text, from left to right. -/
def identifiers (cs : List Char) : List String :=
  match cs with
  | [] => []
  | c :: rest =>
    if isIdentifierStart c then
      String.ofList (c :: rest.takeWhile isIdentifierPart)
        :: identifiers (rest.dropWhile isIdentifierPart)
    else identifiers rest
  termination_by cs.length
  decreasing_by
    · have := (List.dropWhile_suffix (l := rest) isIdentifierPart).length_le
      simp only [List.length_cons]
      omega
    · simp

def isTagChar (c : Char) : Bool := isAsciiLower c || isAsciiDigit c

/-- The parts of a hyphenated name after its first part. -/
def hyphenated (cs : List Char) : List (List Char) :=
  match cs with
  | '-' :: rest =>
    let part := rest.takeWhile isTagChar
    if part.isEmpty then [] else part :: hyphenated (rest.dropWhile isTagChar)
  | _ => []
  termination_by cs.length
  decreasing_by
    have := (List.dropWhile_suffix (l := rest) isTagChar).length_le
    simp only [List.length_cons]
    omega

/-- The parts of a hyphenated tag name at the start of a text. -/
def tagParts? (cs : List Char) : Option (List Char × List (List Char)) :=
  match cs with
  | [] => none
  | c :: rest =>
    if !isAsciiLower c then none
    else match hyphenated (rest.dropWhile isTagChar) with
      | [] => none
      | parts => some (c :: rest.takeWhile isTagChar, parts)

/-- The names of components whose hyphenated tags stand in a text; the first part of a tag may be
a prefix that is not in the name. -/
def tagNames (cs : List Char) : List String :=
  match cs with
  | [] => []
  | '<' :: rest =>
    let name := if rest.head? == some '/' then rest.drop 1 else rest
    match tagParts? name with
    | some (first, parts) =>
      let words := joinWith ['-'] parts
      String.ofList (Name.pascalChars (first ++ '-' :: words))
        :: String.ofList (Name.pascalChars words) :: tagNames rest
    | none => tagNames rest
  | _ :: rest => tagNames rest

def references (cs : List Char) : List String := identifiers cs ++ tagNames cs

/-- A script with a line break in the place of every import statement. -/
def bodyOf : List (Piece (Option Statement)) → List Char
  | [] => []
  | .found (some _) _ :: rest => '\n' :: bodyOf rest
  | p :: rest => p.raw ++ bodyOf rest

/-- What is left of a statement when only the names in `used` count. -/
def restrictStatement (used : String → Bool) (s : Statement) (raw : List Char) : List Char :=
  if s.clause.locals.all used then raw
  else
    let clause := s.clause.restrict used
    if clause.isEmpty then [] else ({ s with clause }).write.toList

def restrictPieces (used : String → Bool) : List (Piece (Option Statement)) → List Char
  | [] => []
  | .found (some s) raw :: rest => restrictStatement used s raw ++ restrictPieces used rest
  | p :: rest => p.raw ++ restrictPieces used rest

/-- The script without the import bindings that are neither used nor in `preserve`. -/
def withoutUnused (preserve : List String) (code : String) : String :=
  let ps := importPieces code
  let used := references (bodyOf ps) ++ preserve
  String.ofList (restrictPieces used.contains ps)

end ViewWriter.Script
