import ViewWriter.Text.Table.Character

/-!
Classes of characters. Each is decided by a rule on ASCII and by a table beyond it.
-/

namespace ViewWriter.Text

def isAscii (c : Char) : Bool := c.toNat < 128

def isAsciiUpper (c : Char) : Bool := 'A' ≤ c && c ≤ 'Z'
def isAsciiLower (c : Char) : Bool := 'a' ≤ c && c ≤ 'z'
def isAsciiDigit (c : Char) : Bool := '0' ≤ c && c ≤ '9'
def isAsciiLetter (c : Char) : Bool := isAsciiUpper c || isAsciiLower c
def isAsciiAlphanumeric (c : Char) : Bool := isAsciiLetter c || isAsciiDigit c

/-- The four control characters that stand between files, groups, records and units. -/
def isInformationSeparator (c : Char) : Bool := 28 ≤ c.toNat && c.toNat ≤ 31

/-- White space of every script, with the four information separators. -/
def isBlank (c : Char) : Bool :=
  let n := c.toNat
  (9 ≤ n && n ≤ 13) || (28 ≤ n && n ≤ 32) || n == 133 || n == 160 || n == 5760 ||
    (8192 ≤ n && n ≤ 8202) || n == 8232 || n == 8233 || n == 8239 || n == 8287 || n == 12288

def isLetter (c : Char) : Bool :=
  if isAscii c then isAsciiLetter c else Table.letter.contains c

/-- The value of a digit of some decimal notation. -/
def decimalValue? (c : Char) : Option Nat :=
  if isAscii c then (if isAsciiDigit c then some (c.toNat - 48) else none)
  else (Table.zeros.find? fun z => z ≤ c.toNat && c.toNat ≤ z + 9).map (c.toNat - ·)

def isDecimal (c : Char) : Bool := (decimalValue? c).isSome

/-- Decimal digits and the digit signs that take no part in decimal notation. -/
def isDigit (c : Char) : Bool := isDecimal c || Table.digitSign.contains c

def isAlphanumeric (c : Char) : Bool :=
  if isAscii c then isAsciiAlphanumeric c else Table.letter.contains c || Table.numeral.contains c

/-- Characters of words: letters, numerals and the underscore. -/
def isWordChar (c : Char) : Bool := isAlphanumeric c || c == '_'

def isUppercase (c : Char) : Bool :=
  if isAscii c then isAsciiUpper c else Table.uppercase.contains c

/-- Characters that a quoted text shows as themselves. -/
def isPrintable (c : Char) : Bool :=
  if isAscii c then 32 ≤ c.toNat && c.toNat < 127 else Table.printable.contains c

def isNameStart (c : Char) : Bool :=
  if isAscii c then isAsciiLetter c || c == '_'
  else (Table.letter.contains c && !Table.letterNotNameStart.contains c) ||
    Table.nameStartOnly.contains c

def isNamePart (c : Char) : Bool :=
  if isAscii c then isAsciiAlphanumeric c || c == '_'
  else (Table.letter.contains c && !Table.letterNotNamePart.contains c) ||
    Table.namePartOnly.contains c

/-- A name in the sense of the Unicode identifier rules. -/
def isName : List Char → Bool
  | [] => false
  | c :: rest => isNameStart c && rest.all isNamePart

def isIdentifierStart (c : Char) : Bool := isAsciiLetter c || c == '_' || c == '$'

def isIdentifierPart (c : Char) : Bool := isWordChar c || c == '$'

/-- A whole text that is one script identifier. -/
def isIdentifier : List Char → Bool
  | [] => false
  | c :: rest => isIdentifierStart c && rest.all isIdentifierPart

end ViewWriter.Text
