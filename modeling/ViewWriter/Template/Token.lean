import ViewWriter.Template.Operand

/-!
Tokens of a template source: texts, and tags between double braces. A block tag that stands alone
on its line takes the whole line with it.
-/

namespace ViewWriter.Template

open ViewWriter.Text

inductive Tag where
  | path (path : String)
  | ifOpen (condition : String)
  | ifElse
  | ifClose
  | eachOpen (source : String)
  | eachClose
  | helper (name : String) (args : List String)
deriving DecidableEq, Repr

/-- Tags that begin, part or end a block. -/
def Tag.isBlock : Tag → Bool
  | path _ => false
  | helper _ _ => false
  | _ => true

/-- `raw` is the token as it stands in the source. -/
inductive Token where
  | text (value raw : String)
  | tag (t : Tag) (raw : String)
deriving DecidableEq, Repr

def Token.raw : Token → String
  | text _ raw => raw
  | tag _ raw => raw

/-- The keyword `word`, white space, and what follows it. -/
def afterKeyword? (word : String) (cs : List Char) : Option (List Char) :=
  match stripPrefix? word.toList cs with
  | some (c :: rest) => if isBlank c then some (trimStart isBlank rest) else none
  | _ => none

/-- The tag that the inside of a pair of double braces stands for. -/
def Tag.ofBody? (body : List Char) : Option Tag :=
  let cs := trim isBlank body
  if cs == "#else".toList then some ifElse
  else if cs == "/if".toList then some ifClose
  else if cs == "/each".toList then some eachClose
  else match afterKeyword? "#if" cs with
    | some condition => some (ifOpen (String.ofList condition))
    | none => match (afterKeyword? "#each" cs).filter fun source => !source.any isBlank with
      | some source => some (eachOpen (String.ofList source))
      | none =>
        if isPath cs then some (path (String.ofList cs))
        else match arguments? cs with
          | some (name :: arg :: args) =>
            if isIdentifier name then
              some (helper (String.ofList name) ((arg :: args).map String.ofList))
            else none
          | _ => none

/-- What stands before the first pair of closing braces, and what stands after it. -/
def untilClose : List Char → Option (List Char × List Char)
  | '\x7d' :: '\x7d' :: rest => some ([], rest)
  | c :: rest => (untilClose rest).map fun r => (c :: r.1, r.2)
  | [] => none

theorem untilClose_length {cs body rest : List Char} (h : untilClose cs = some (body, rest)) :
    rest.length < cs.length := by
  fun_induction untilClose cs generalizing body rest with
  | case1 r =>
    simp only [Option.some.injEq, Prod.mk.injEq] at h
    simp only [List.length_cons, ← h.2]
    omega
  | case2 c r _ ih =>
    obtain ⟨⟨b, after⟩, hp, he⟩ := Option.map_eq_some_iff.1 h
    have := ih hp
    simp only [Prod.mk.injEq] at he
    simp only [List.length_cons, ← he.2]
    omega
  | case3 => simp at h

def marker (body : List Char) : String := String.ofList ('\x7b' :: '\x7b' :: body ++ ['\x7d', '\x7d'])

/-- A pair of double braces that is no tag stays as text. -/
def Token.ofBody (body : List Char) : Token :=
  match Tag.ofBody? body with
  | some t => .tag t (marker body)
  | none => .text (marker body) (marker body)

def Token.ofText (cs : List Char) : Token := .text (String.ofList cs) (String.ofList cs)

/-- The tokens of a source; `passed` holds the text before it, the last character first. -/
def scan (passed cs : List Char) : List Token :=
  let pending := if passed.isEmpty then [] else [Token.ofText passed.reverse]
  match cs with
  | [] => pending
  | '\x7b' :: '\x7b' :: rest =>
    match _h : untilClose rest with
    | some (body, after) => pending ++ Token.ofBody body :: scan [] after
    | none => scan ('\x7b' :: passed) ('\x7b' :: rest)
  | c :: rest => scan (c :: passed) rest
  termination_by cs.length
  decreasing_by
    · have := untilClose_length _h
      simp only [List.length_cons]
      omega
    · simp
    · simp

def isMargin (c : Char) : Bool := c == ' ' || c == '\t'

/-- Whether only a margin stands between the last line break and a tag after these tokens, the
nearest of which comes first. -/
def startsLine : List Token → Bool
  | [] => true
  | .text value _ :: earlier =>
    (value.toList.reverse.takeWhile (· != '\n')).all isMargin &&
      (value.toList.contains '\n' || earlier.isEmpty)
  | _ => false

/-- Whether only a margin stands between a tag and the line break after it. -/
def endsLine : List Token → Bool
  | [] => true
  | .text value _ :: later =>
    (value.toList.takeWhile (· != '\n')).all (fun c => isMargin c || c == '\r') &&
      (value.toList.contains '\n' || later.isEmpty)
  | _ => false

/-- The block tag next to a text stands alone on its line. -/
def isAlone (neighbour : List Token) (before after : List Token) : Bool :=
  match neighbour with
  | .tag t _ :: _ => t.isBlock && startsLine before && endsLine after
  | _ => false

def afterFirstBreak (cs : List Char) : List Char := (cs.dropWhile (· != '\n')).drop 1

def uptoLastBreak (cs : List Char) : List Char := (cs.reverse.dropWhile (· != '\n')).reverse

/-- Takes the lines of lone block tags out of the texts around them. -/
def trimLines (before : List Token) : List Token → List Token
  | [] => []
  | .text value raw :: rest =>
    let here := Token.text value raw
    let cs := value.toList
    let cs := if isAlone before (before.drop 1) (here :: rest) then afterFirstBreak cs else cs
    let cs := if isAlone rest (here :: before) (rest.drop 1) then uptoLastBreak cs else cs
    if cs.isEmpty then trimLines (here :: before) rest
    else .text (String.ofList cs) raw :: trimLines (here :: before) rest
  | t :: rest => t :: trimLines (t :: before) rest

def tokenize (source : String) : List Token := trimLines [] (scan [] source.toList)

end ViewWriter.Template
