import ViewWriter.Number.Binary64
import ViewWriter.Text.Split

/-!
Reading numbers from text. White space around a number does not count, digits of every decimal
notation do, and an underscore may stand between two digits.
-/

namespace ViewWriter.Number

open ViewWriter.Text

/-- Longer runs of digits are not read as integers. -/
def maxDigits : Nat := 4300

/-- White space that may stand around a number; the information separators may not. -/
def isNumberMargin (c : Char) : Bool := isBlank c && !isInformationSeparator c

def asciiDigit (n : Nat) : Char := Char.ofNat (48 + n)

/-- The text with every decimal digit in its ASCII form. -/
def plainDigits (cs : List Char) : List Char :=
  cs.map fun c => match decimalValue? c with
    | some n => asciiDigit n
    | none => c

/-- The text without its underscores, each of which stands between two digits. -/
def withoutSeparators? (before : Option Char) : List Char → Option (List Char)
  | [] => some []
  | '_' :: rest =>
    match before, rest with
    | some b, d :: _ =>
      if isAsciiDigit b && isAsciiDigit d then withoutSeparators? (some '_') rest else none
    | _, _ => none
  | c :: rest => (withoutSeparators? (some c) rest).map (c :: ·)

def splitSign : List Char → Bool × List Char
  | '-' :: rest => (true, rest)
  | '+' :: rest => (false, rest)
  | cs => (false, cs)

def digitsValue (cs : List Char) : Nat :=
  cs.foldl (fun n c => 10 * n + (c.toNat - 48)) 0

def natural? (cs : List Char) : Option Nat :=
  if cs.isEmpty || !cs.all isAsciiDigit then none else some (digitsValue cs)

/-- The sign of a number, and the rest of it without margins and underscores. -/
def prepared? (s : String) : Option (Bool × List Char) :=
  (withoutSeparators? none (plainDigits (trim isNumberMargin s.toList))).map splitSign

/-- The integer written in a text, if it holds nothing else. -/
def integer? (s : String) : Option Int := do
  let (negative, digits) ← prepared? s
  if maxDigits < digits.length then none
  return Binary64.signed negative (← natural? digits)

/-- The power of ten at the end of a number. -/
def exponent? : List Char → Option Int
  | [] => some 0
  | c :: rest =>
    if c == 'e' || c == 'E' then
      let (negative, digits) := splitSign rest
      (natural? digits).map (Binary64.signed negative)
    else none

/-- An unsigned number in decimal or exponent notation. -/
def unsigned? (negative : Bool) (cs : List Char) : Option Binary64 := do
  let whole := cs.takeWhile isAsciiDigit
  let rest := cs.dropWhile isAsciiDigit
  let (places, rest) := match rest with
    | '.' :: after => (after.takeWhile isAsciiDigit, after.dropWhile isAsciiDigit)
    | _ => ([], rest)
  if whole.isEmpty && places.isEmpty then none
  let e ← exponent? rest
  return Binary64.ofDecimal negative (digitsValue (whole ++ places)) (e - places.length)

/-- The number written in a text, if it holds nothing else. -/
def real? (s : String) : Option Binary64 := do
  let (negative, cs) ← prepared? s
  let word := String.ofList (cs.map fun c => if isAsciiUpper c then Char.ofNat (c.toNat + 32) else c)
  if word == "inf" || word == "infinity" then return .infinite negative
  if word == "nan" then return .nan
  unsigned? negative cs

end ViewWriter.Number
