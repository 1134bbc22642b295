import ViewWriter.Json.Basic
import ViewWriter.Text.Quoted

/-!
Values as text. In running text a text stands for itself, and inside a list or an object it is quoted. In data
notation values are on one line, or with a line for each member.
-/

namespace ViewWriter.Json

mutual

def quoted : Json → String
  | null => "None"
  | bool b => if b then "True" else "False"
  | int i => toString i
  | float x => NumberFormat.plain.write x
  | str s => Text.quoted s
  | arr items => "[" ++ Text.join ", " (quotedItems items) ++ "]"
  | obj fields => "\x7b" ++ Text.join ", " (quotedFields fields) ++ "\x7d"

def quotedItems : List Json → List String
  | [] => []
  | v :: rest => quoted v :: quotedItems rest

def quotedFields : List (String × Json) → List String
  | [] => []
  | (k, v) :: rest => (Text.quoted k ++ ": " ++ quoted v) :: quotedFields rest

end

def display : Json → String
  | str s => s
  | v => quoted v

open ViewWriter.Text

/-- Which characters a written text may hold. -/
inductive Charset where
  | ascii
  | unicode
deriving DecidableEq

def unitEscape (n : Nat) : List Char := '\\' :: 'u' :: hexDigits 4 n

/-- A character as one or two 16-bit units. -/
def unitsEscape (c : Char) : List Char :=
  let n := c.toNat
  if n < 65536 then unitEscape n
  else unitEscape (0xD800 + (n - 65536) / 1024) ++ unitEscape (0xDC00 + (n - 65536) % 1024)

def literalChar (set : Charset) (c : Char) : List Char :=
  if c == '"' then ['\\', '"']
  else if c == '\\' then ['\\', '\\']
  else if c == '\n' then ['\\', 'n']
  else if c == '\r' then ['\\', 'r']
  else if c == '\t' then ['\\', 't']
  else if c == '\x08' then ['\\', 'b']
  else if c == '\x0c' then ['\\', 'f']
  else if c.toNat < 32 then unitEscape c.toNat
  else if set == .ascii && 127 ≤ c.toNat then unitsEscape c
  else [c]

def literal (set : Charset) (s : String) : String :=
  String.ofList ('"' :: s.toList.flatMap (literalChar set) ++ ['"'])

mutual

def compact (set : Charset) : Json → String
  | null => "null"
  | bool b => if b then "true" else "false"
  | int i => toString i
  | float x => NumberFormat.source.write x
  | str s => literal set s
  | arr items => "[" ++ join ", " (compactItems set items) ++ "]"
  | obj fields => "\x7b" ++ join ", " (compactFields set fields) ++ "\x7d"

def compactItems (set : Charset) : List Json → List String
  | [] => []
  | v :: rest => compact set v :: compactItems set rest

def compactFields (set : Charset) : List (String × Json) → List String
  | [] => []
  | (k, v) :: rest => (literal set k ++ ": " ++ compact set v) :: compactFields set rest

end

/-- Members on lines of their own between two brackets. -/
def block (opening closing margin inner : String) (members : List String) : String :=
  if members.isEmpty then opening ++ closing
  else opening ++ "\n" ++ join ",\n" (members.map (inner ++ ·)) ++ "\n" ++ margin ++ closing

mutual

/-- The value with two spaces of indentation for each level. -/
def indented (margin : String) : Json → String
  | arr items => block "[" "]" margin (margin ++ "  ") (indentedItems (margin ++ "  ") items)
  | obj fields =>
    block "\x7b" "\x7d" margin (margin ++ "  ") (indentedFields (margin ++ "  ") fields)
  | v => compact .unicode v

def indentedItems (margin : String) : List Json → List String
  | [] => []
  | v :: rest => indented margin v :: indentedItems margin rest

def indentedFields (margin : String) : List (String × Json) → List String
  | [] => []
  | (k, v) :: rest =>
    (literal .unicode k ++ ": " ++ indented margin v) :: indentedFields margin rest

end

end ViewWriter.Json
