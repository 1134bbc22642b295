import ViewWriter.Text.Lines

/-!
Flat stylesheets: reading them, and writing them in one form.
-/

namespace ViewWriter

open ViewWriter.Text

/-- A property and its value. -/
abbrev StyleDeclaration := String × String

structure Rule where
  selector : String
  declarations : List StyleDeclaration
deriving DecidableEq, Repr

namespace Rule

def properties (r : Rule) : List String := r.declarations.map (·.1)

def write (indent : String) (r : Rule) : String :=
  join "\n" ((r.selector ++ " \x7b")
    :: r.declarations.map (fun d => indent ++ d.1 ++ ": " ++ d.2 ++ ";") ++ ["\x7d"])

end Rule

namespace Stylesheet

/-- The parts of a block between semicolons outside quotes and parentheses, if both are closed.
`quote` is the open quote and `depth` counts the open parentheses. -/
def splitBlock (quote : Option Char) (depth : Int) : List Char → Option (List (List Char))
  | [] => if quote.isSome || depth != 0 then none else some [[]]
  | c :: rest =>
    let go (quote : Option Char) (depth : Int) : Option (List (List Char)) :=
      (splitBlock quote depth rest).map fun parts => match parts with
        | [] => [[c]]
        | part :: more => (c :: part) :: more
    match quote with
    | some q => go (if c == q then none else some q) depth
    | none =>
      if c == '\'' || c == '"' then go (some c) depth
      else if c == '(' then go none (depth + 1)
      else if c == ')' then go none (depth - 1)
      else if c == ';' && depth == 0 then (splitBlock none depth rest).map ([] :: ·)
      else go none depth

/-- A property, a colon and a value. -/
def declaration? (part : List Char) : Option StyleDeclaration :=
  match cut ':' part with
  | (property, some value) =>
    let property := trim isBlank property
    let value := squeezed value
    if property.isEmpty || value.isEmpty then none
    else some (String.ofList property, String.ofList value)
  | (_, none) => none

def declarations? (body : List Char) : Option (List StyleDeclaration) := do
  let parts ← splitBlock none 0 body
  (parts.filter fun part => !part.all isBlank).mapM declaration?

/-- One comma and one space between the parts of a selector. -/
def selectorOf (cs : List Char) : String :=
  String.ofList (joinWith [',', ' '] ((splitOn ',' cs).map squeezed))

def isBrace (c : Char) : Bool := c == '\x7b' || c == '\x7d'

def rules? (cs : List Char) : Option (List Rule) :=
  if cs.all isBlank then some []
  else
    let selector := cs.takeWhile (!isBrace ·)
    match _h : cs.drop selector.length with
    | '\x7b' :: inside =>
      let body := inside.takeWhile (!isBrace ·)
      match _h2 : inside.drop body.length with
      | '\x7d' :: rest =>
        if selector.isEmpty then none
        else do
          let declarations ← declarations? body
          let more ← rules? (rest.dropWhile isBlank)
          return ⟨selectorOf selector, declarations⟩ :: more
      | _ => none
    | _ => none
  termination_by cs.length
  decreasing_by
    have h₁ := congrArg List.length _h
    have h₂ := congrArg List.length _h2
    have h₃ := (List.dropWhile_suffix (l := rest) isBlank).length_le
    simp only [List.length_drop, List.length_cons] at h₁ h₂
    omega

/-- The rules of a stylesheet without comments, at-rules and nesting. -/
def parse? (css : String) : Option (List Rule) :=
  let cs := css.toList
  if hasPart ['/', '*'] cs || cs.contains '@' then none else rules? cs

def write (indent : String) (rules : List Rule) : String :=
  if rules.isEmpty then "" else join "\n\n" (rules.map (·.write indent)) ++ "\n"

end Stylesheet

end ViewWriter
