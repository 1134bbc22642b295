import ViewWriter.Text.Character
import ViewWriter.Text.Table.Case

/-!
Capital and small forms of whole texts. A capital sigma at the end of a word becomes a final one.
-/

namespace ViewWriter.Text

def asciiUpper (c : Char) : Char := if isAsciiLower c then Char.ofNat (c.toNat - 32) else c
def asciiLower (c : Char) : Char := if isAsciiUpper c then Char.ofNat (c.toNat + 32) else c

def caseForm (runs : List CaseRun) (sequences : List (Nat × List Nat)) (c : Char) : List Char :=
  match sequences.find? (·.1 == c.toNat) with
  | some (_, codes) => codes.map Char.ofNat
  | none => match runs.findSome? (·.image? c.toNat) with
    | some n => [Char.ofNat n]
    | none => [c]

def capitalForm (c : Char) : List Char :=
  if isAscii c then [asciiUpper c] else caseForm Table.capitalRuns Table.capitalSequences c

/-- The small form of a character outside any context. -/
def smallForm (c : Char) : List Char :=
  if isAscii c then [asciiLower c] else caseForm Table.smallRuns Table.smallSequences c

def isCased (c : Char) : Bool :=
  if isAscii c then isAsciiLetter c else Table.cased.contains c

/-- Whether the first character that is not passed over has case. -/
def meetsCased (cs : List Char) : Bool :=
  match cs.dropWhile Table.caseIgnorable.contains with
  | [] => false
  | c :: _ => isCased c

/-- Small forms; `before` holds the characters passed so far, the nearest first. -/
def lowerAfter (before : List Char) : List Char → List Char
  | [] => []
  | c :: rest =>
    (if c == 'Σ' then [if meetsCased before && !meetsCased rest then 'ς' else 'σ'] else smallForm c)
      ++ lowerAfter (c :: before) rest

def lowerChars (cs : List Char) : List Char := lowerAfter [] cs
def upperChars (cs : List Char) : List Char := cs.flatMap capitalForm

def lower (s : String) : String := String.ofList (lowerChars s.toList)
def upper (s : String) : String := String.ofList (upperChars s.toList)

end ViewWriter.Text
