import ViewWriter.Fault
import ViewWriter.Text.Case
import ViewWriter.Text.Split

/-!
Addresses on the web: the scheme and the authority, as far as they decide where a document is read
from.
-/

namespace ViewWriter.Document

open ViewWriter.Text

structure Address where
  scheme : String
  authority : List Char
deriving DecidableEq, Repr

namespace Address

def isHexDigit (c : Char) : Bool := isAsciiDigit c || ('a' ≤ c && c ≤ 'f') || ('A' ≤ c && c ≤ 'F')

def isSchemeChar (c : Char) : Bool := isAsciiAlphanumeric c || c == '+' || c == '-' || c == '.'

/-- Control characters and blanks in front of an address, and breaks inside it, do not count. -/
def cleaned (cs : List Char) : List Char :=
  (cs.dropWhile fun c => c.toNat ≤ 32).filter fun c => c != '\t' && c != '\r' && c != '\n'

/-- The scheme, in small letters, and what follows it. -/
def cutScheme (cs : List Char) : List Char × List Char :=
  match cs, cut ':' cs with
  | c :: _, (scheme, some rest) =>
    if isAsciiLetter c && scheme.all isSchemeChar then (scheme.map asciiLower, rest) else ([], cs)
  | _, _ => ([], cs)

def authorityOf : List Char → List Char
  | '/' :: '/' :: rest => rest.takeWhile fun c => c != '/' && c != '?' && c != '#'
  | _ => []

/-- One of the four numbers of a dotted host. -/
def isOctet (cs : List Char) : Bool :=
  !cs.isEmpty && cs.length ≤ 3 && cs.all isAsciiDigit && (cs == ['0'] || cs.head? != some '0')
    && cs.foldl (fun n c => 10 * n + (c.toNat - 48)) 0 ≤ 255

def isDotted (cs : List Char) : Bool :=
  let parts := splitOn '.' cs
  parts.length == 4 && parts.all isOctet

def isGroup (cs : List Char) : Bool := !cs.isEmpty && cs.length ≤ 4 && cs.all isHexDigit

/-- The groups of a numbered host, with two groups in the place of a dotted end. -/
def groups? (cs : List Char) : Option (List (List Char)) :=
  let parts := splitOn ':' cs
  match parts.getLast? with
  | some last =>
    if parts.length < 3 then none
    else if last.contains '.' then
      if isDotted last then some (parts.dropLast ++ [['0'], ['0']]) else none
    else some parts
  | none => none

/-- Eight groups, or fewer with one gap between them. -/
def areGroups (parts : List (List Char)) : Bool :=
  let inner := (parts.drop 1).dropLast
  match inner.findIdx? List.isEmpty with
  | none => parts.length == 8 && parts.all isGroup
  | some i =>
    let before := parts.take (i + 1)
    let after := parts.drop (i + 2)
    let before := if before == [[]] then [] else before
    let after := if after == [[]] then [] else after
    parts.length ≤ 9 && before.all isGroup && after.all isGroup && before.length + after.length < 8

/-- A numbered host, perhaps with a zone. -/
def isNumbered (cs : List Char) : Bool :=
  match cut '%' cs with
  | (host, zone) =>
    !cs.contains '/' && (match zone with
      | some z => !z.isEmpty && !z.contains '%'
      | none => true)
    && (match groups? host with
      | some parts => areGroups parts
      | none => false)

/-- A host of a later form: a version and a point before anything else. -/
def isVersioned (cs : List Char) : Bool :=
  let version := cs.takeWhile isHexDigit
  match cs.drop version.length with
  | '.' :: _ :: _ => !version.isEmpty
  | _ => false

def isBracketed : List Char → Bool
  | 'v' :: rest => isVersioned rest
  | cs => isNumbered cs

/-- The host of an authority: it stands behind the user and before the port, and brackets around it
enclose all of it. -/
def host? (authority : List Char) : Option (List Char) :=
  let place := (splitOn '@' authority).getLast?.getD []
  match cut '[' place with
  | (before, some inner) =>
    let (host, port) := cut ']' inner
    if before.isEmpty && (port.getD []).head?.all (· == ':') then some host else none
  | (_, none) => some (cut ':' place).1

/-- Characters that stand for a delimiter in another form. -/
def compatibleDelimiters : List Nat := [
  0x2047, 0x2048, 0x2049, 0x2100, 0x2101, 0x2105, 0x2106, 0x2A74, 0xFE13, 0xFE16, 0xFE55, 0xFE56,
  0xFE5F, 0xFE6B, 0xFF03, 0xFF0F, 0xFF1A, 0xFF1F, 0xFF20]

def isAuthority (cs : List Char) : Bool :=
  (cs.contains '[' == cs.contains ']') && (!cs.contains '[' || (host? cs).any isBracketed)
    && !cs.any fun c => compatibleDelimiters.contains c.toNat

/-- The address that a text stands for; a text without a scheme has an empty one. -/
def parse (s : String) : Except Fault Address :=
  let (scheme, rest) := cutScheme (cleaned s.toList)
  let authority := authorityOf rest
  if isAuthority authority then .ok ⟨String.ofList scheme, authority⟩ else .error .content

/-- Whether documents are fetched from addresses like this. -/
def isWeb (a : Address) : Bool := a.scheme == "http" || a.scheme == "https"

end Address

end ViewWriter.Document
