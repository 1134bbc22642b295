import ViewWriter.Fault
import ViewWriter.Number.Reading
import ViewWriter.Script.Piece

/-!
Repeated static elements of component scripts, declared once and named where they stood.
-/

namespace ViewWriter.Script

open ViewWriter.Text

def exportStart : List Char := "export default ".toList

def beginsExport (line : List Char) : Bool := exportStart.isPrefixOf line

def hasExport (ls : List (List Char)) : Bool := ls.any beginsExport

def isElementNameChar (c : Char) : Bool := isWordChar c || c == '.' || c == '-'

/-- The margin and name of an element that a line opens. -/
def openedElement? (line : List Char) : Option (List Char × List Char) :=
  match line.dropWhile isMargin with
  | '<' :: c :: rest =>
    let name := c :: rest.takeWhile isElementNameChar
    match rest.dropWhile isElementNameChar with
    | d :: _ =>
      if isAsciiLetter c && (isBlank d || d == '>') then some (line.takeWhile isMargin, name) else none
    | [] => none
  | _ => none

def endTag (name : List Char) : List Char := '<' :: '/' :: name ++ ['>']

def endsWith (tail cs : List Char) : Bool := tail.reverse.isPrefixOf cs.reverse

/-- The number of lines up to the one that closes an element, if all lines before that one are
blank or stand further in. -/
def linesToClose? (indent closing : List Char) : List (List Char) → Option Nat
  | [] => none
  | l :: rest =>
    if trimEnd isBlank l == closing then some 1
    else if isBlankLine l || (indent ++ [' ']).isPrefixOf l then
      (linesToClose? indent closing rest).map (· + 1)
    else none

/-- A look-up of a style class at the start of a text, and what follows it. -/
def afterClassLookup? (cs : List Char) : Option (List Char) := do
  let rest ← stripPrefix? "\x7bstyles".toList cs
  match rest with
  | '.' :: rest =>
    let name := rest.takeWhile isIdentifierPart
    if isIdentifier name then stripPrefix? ['\x7d'] (rest.drop name.length) else none
  | '[' :: '\'' :: rest =>
    let inside := rest.dropWhile fun c => c != '\'' && c != ']'
    stripPrefix? ['\'', ']', '\x7d'] inside
  | _ => none

/-- Whether there are braces besides those of class look-ups; `skip` characters are passed over. -/
def hasExpression (skip : Nat) : List Char → Bool
  | [] => false
  | c :: rest =>
    match skip with
    | n + 1 => hasExpression n rest
    | 0 =>
      if c == '\x7b' then
        match afterClassLookup? (c :: rest) with
        | some after => hasExpression (rest.length - after.length) rest
        | none => true
      else c == '\x7d' || hasExpression 0 rest

/-- Whether an element stands on its line alone, up to an end on a later line. -/
def isOpenLine (name line : List Char) : Bool :=
  !endsWith ['/', '>'] (trimEnd isBlank line) && !hasPart (endTag name) line

/-- A block of lines that opens and closes one element. -/
structure StaticBlock where
  first : Nat
  indent : List Char
  /-- the lines without the margin of the first -/
  body : List (List Char)

/-- The static block of at least `least` lines that begins with the first line. -/
def blockAt? (least first : Nat) (line : List Char) (after : List (List Char)) :
    Option StaticBlock := do
  let (indent, name) ← openedElement? line
  if !isOpenLine name line then none
  let count ← linesToClose? indent (indent ++ endTag name) after
  if count + 1 < least then none
  let block := line :: after.take count
  if hasExpression 0 (unlines block) then none
  return ⟨first, indent, block.map (·.drop indent.length)⟩

def staticBlocks (least first : Nat) : List (List Char) → List StaticBlock
  | [] => []
  | l :: rest => (blockAt? least first l rest).toList ++ staticBlocks least (first + 1) rest

/-- The blocks with one body. -/
def copiesOf (blocks : List StaticBlock) (b : StaticBlock) : List StaticBlock :=
  blocks.filter (·.body == b.body)

def isLonger (a b : StaticBlock) : Bool := b.body.length < a.body.length

/-- The longest block that stands more than once, the first of them. -/
def repeated? (blocks : List StaticBlock) : Option StaticBlock :=
  (blocks.filter fun b => 1 < (copiesOf blocks b).length).foldl
    (fun best b => match best with
      | none => some b
      | some a => if isLonger b a then some b else some a) none

def sharedStem : List Char := "SharedBlock".toList

/-- The numbers of shared blocks that are named in a text; `before` is the character before it. -/
def sharedNumbers (before : Option Char) (cs : List Char) : List (List Char) :=
  match cs with
  | [] => []
  | c :: rest =>
    let here := match stripPrefix? sharedStem (c :: rest) with
      | some after =>
        let digits := after.takeWhile isDecimal
        let next := (after.drop digits.length).head?
        if (before.map isWordChar).getD false || digits.isEmpty || (next.map isWordChar).getD false
        then [] else [digits]
      | none => []
    here ++ sharedNumbers (some c) rest

/-- The first number above all that are in use. A number of too many digits is neither read nor
written. -/
def nextShared (cs : List Char) : Except Fault Nat := do
  let numbers ← (sharedNumbers none cs).mapM fun digits =>
    match Number.integer? (String.ofList digits) with
    | some i => Except.ok i.toNat
    | none => .error Fault.content
  let next := numbers.foldl max 0 + 1
  if powerOfTen Number.maxDigits ≤ next then throw Fault.content
  return next

def sharedName (n : Nat) : List Char := sharedStem ++ Nat.toDigits 10 n

/-- The lines with one line in the place of each copy. The copies are in order and do not overlap;
`place` is the number of the first line. -/
def replaceCopies (name : List Char) (place : Nat) (ls : List (List Char)) :
    List StaticBlock → List (List Char)
  | [] => ls
  | b :: rest =>
    ls.take (b.first - place) ++ (b.indent ++ '<' :: name ++ " />".toList)
      :: replaceCopies name (b.first + b.body.length) (ls.drop (b.first - place + b.body.length)) rest

def sharedDeclaration (unit name : List Char) (body : List (List Char)) : List (List Char) :=
  ("const ".toList ++ name ++ " = () => (".toList)
    :: body.map (fun l => if isBlankLine l then l else unit ++ l) ++ [");".toList, []]

/-- Puts lines in front of the first that begins an export. -/
def beforeExport (new ls : List (List Char)) : List (List Char) :=
  ls.takeWhile (!beginsExport ·) ++ new ++ ls.dropWhile (!beginsExport ·)

/-- Declares the longest repeated block once, if there is one. -/
def shareOnce? (unit : Except Fault String) (least : Nat) (code : List Char) :
    Except Fault (Option (List Char)) :=
  let ls := lines code
  let blocks := staticBlocks least 0 ls
  match repeated? blocks with
  | none => .ok none
  | some b => do
    let name := sharedName (← nextShared code)
    let unit ← unit
    let replaced := replaceCopies name 0 ls (copiesOf blocks b)
    return some (unlines (beforeExport (sharedDeclaration unit.toList name b.body) replaced))

/-- Shares blocks until none is repeated, in at most `rounds` rounds. -/
def shareRounds (unit : Except Fault String) (least : Nat) :
    Nat → List Char → Except Fault (List Char)
  | 0, code => .ok code
  | rounds + 1, code => do
    match ← shareOnce? unit least code with
    | none => return code
    | some next => shareRounds unit least rounds next

/-- The script with every repeated static block of at least `least` lines declared once. There are
no more rounds than lines. -/
def shareBlocks (unit : Except Fault String) (least : Nat) (code : String) :
    Except Fault String := do
  let cs := code.toList
  let shared ← shareRounds unit least (lines cs).length cs
  return String.ofList shared

end ViewWriter.Script
