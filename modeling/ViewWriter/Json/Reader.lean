import ViewWriter.Json.Basic
import ViewWriter.Number.Reading

/-!
Reading values from data notation, with the place of the first problem.
-/

namespace ViewWriter.Json

open ViewWriter.Text ViewWriter.Number

inductive Problem where
  | byteOrderMark
  | value
  | propertyName
  | colon
  | comma
  | extraData
  | unterminated
  | controlCharacter
  | escape
  | unicodeEscape
  | tooManyDigits (count : Nat)
deriving DecidableEq

def Problem.message : Problem → String
  | byteOrderMark => "Unexpected UTF-8 BOM (decode using utf-8-sig)"
  | value => "Expecting value"
  | propertyName => "Expecting property name enclosed in double quotes"
  | colon => "Expecting ':' delimiter"
  | comma => "Expecting ',' delimiter"
  | extraData => "Extra data"
  | unterminated => "Unterminated string starting at"
  | controlCharacter => "Invalid control character at"
  | escape => "Invalid \\escape"
  | unicodeEscape => "Invalid \\uXXXX escape"
  | tooManyDigits count =>
    "Exceeds the limit (" ++ toString maxDigits ++ " digits) for integer string conversion: value has "
      ++ toString count ++ " digits; use sys.set_int_max_str_digits() to increase the limit"

/-- A problem and the number of characters from its place to the end. -/
structure Stop where
  problem : Problem
  left : Nat

/-- A result, and the rest of the text, which is shorter than `n`. -/
structure Parsed (α : Type) (n : Nat) where
  value : α
  rest : List Char
  shorter : rest.length < n

def isDataBlank (c : Char) : Bool := c == ' ' || c == '\t' || c == '\n' || c == '\r'

def skipBlank (cs : List Char) : List Char := cs.dropWhile isDataBlank

theorem length_dropWhile_le {p : Char → Bool} (cs : List Char) :
    (cs.dropWhile p).length ≤ cs.length := (List.dropWhile_suffix p).length_le

theorem skipBlank_length (cs : List Char) : (skipBlank cs).length ≤ cs.length :=
  length_dropWhile_le cs

def hexValue? (c : Char) : Option Nat :=
  if isAsciiDigit c then some (c.toNat - 48)
  else if 'a' ≤ c && c ≤ 'f' then some (c.toNat - 87)
  else if 'A' ≤ c && c ≤ 'F' then some (c.toNat - 55)
  else none

/-- Four hexadecimal digits that do not end the text. -/
def hexQuad? (cs : List Char) : Option (Parsed Nat cs.length) :=
  match cs with
  | a :: b :: c :: d :: e :: rest => do
    let a ← hexValue? a
    let b ← hexValue? b
    let c ← hexValue? c
    let d ← hexValue? d
    return ⟨((a * 16 + b) * 16 + c) * 16 + d, e :: rest, by simp only [List.length_cons]; omega⟩
  | _ => none

/-- The second half of a pair of 16-bit units. -/
def lowUnit? (cs : List Char) : Option (Parsed Nat cs.length) :=
  match cs with
  | '\\' :: 'u' :: rest =>
    match hexQuad? rest with
    | some ⟨n, after, h⟩ =>
      if 0xDC00 ≤ n && n < 0xE000 then
        some ⟨n, after, by simp only [List.length_cons]; omega⟩
      else none
    | none => none
  | _ => none

/-- One half of a pair alone has no character and leaves a mark in its place. -/
def unitChar (n : Nat) : Char := if 0xD800 ≤ n && n < 0xE000 then '\uFFFD' else Char.ofNat n

def plainEscape? (c : Char) : Option Char :=
  match c with
  | '"' => some '"'
  | '\\' => some '\\'
  | '/' => some '/'
  | 'b' => some '\x08'
  | 'f' => some '\x0c'
  | 'n' => some '\n'
  | 'r' => some '\r'
  | 't' => some '\t'
  | _ => none

/-- The rest of a text whose opening mark has `start` characters from it to the end. -/
def textBody (start : Nat) (cs : List Char) : Except Stop (Parsed (List Char) (cs.length + 1)) :=
  match cs with
  | [] => .error ⟨.unterminated, start⟩
  | '"' :: rest => .ok ⟨[], rest, by simp only [List.length_cons]; omega⟩
  | ['\\'] => .error ⟨.unterminated, start⟩
  | '\\' :: 'u' :: rest =>
    match hexQuad? rest with
    | none => .error ⟨.unicodeEscape, rest.length + 1⟩
    | some ⟨n, after, _⟩ =>
      match if 0xD800 ≤ n && n < 0xDC00 then lowUnit? after else none with
      | some ⟨m, last, _⟩ =>
        match textBody start last with
        | .error e => .error e
        | .ok ⟨v, r, h⟩ =>
          .ok ⟨Char.ofNat (65536 + (n - 0xD800) * 1024 + (m - 0xDC00)) :: v, r, by
            simp only [List.length_cons]; omega⟩
      | none =>
        match textBody start after with
        | .error e => .error e
        | .ok ⟨v, r, h⟩ => .ok ⟨unitChar n :: v, r, by simp only [List.length_cons]; omega⟩
  | '\\' :: c :: rest =>
    match plainEscape? c with
    | none => .error ⟨.escape, rest.length + 2⟩
    | some d =>
      match textBody start rest with
      | .error e => .error e
      | .ok ⟨v, r, h⟩ => .ok ⟨d :: v, r, by simp only [List.length_cons]; omega⟩
  | c :: rest =>
    if c.toNat < 32 then .error ⟨.controlCharacter, rest.length + 1⟩
    else match textBody start rest with
      | .error e => .error e
      | .ok ⟨v, r, h⟩ => .ok ⟨c :: v, r, by simp only [List.length_cons]; omega⟩
  termination_by cs.length
  decreasing_by all_goals simp only [List.length_cons]; omega

/-- The digits of a fraction, with at least one of them after the point. -/
def fractionPart (cs : List Char) : List Char :=
  match cs with
  | '.' :: rest => rest.takeWhile isAsciiDigit
  | _ => []

/-- The sign and digits of a power of ten, as far as they make one. -/
def exponentPart (cs : List Char) : List Char :=
  match cs with
  | c :: rest =>
    if c == 'e' || c == 'E' then
      let sign := match rest with
        | '+' :: _ => ['+']
        | '-' :: _ => ['-']
        | _ => []
      let digits := (rest.drop sign.length).takeWhile isAsciiDigit
      if digits.isEmpty then [] else sign ++ digits
    else []
  | [] => []

/-- A number at the start of the text. -/
def number (cs : List Char) : Except Stop (Parsed Json cs.length) :=
  let negative := cs.head? == some '-'
  let unsigned := if negative then cs.drop 1 else cs
  let whole := if unsigned.head? == some '0' then ['0'] else unsigned.takeWhile isAsciiDigit
  if whole.isEmpty then .error ⟨.value, cs.length⟩
  else
    let afterWhole := unsigned.drop whole.length
    let places := fractionPart afterWhole
    let afterPlaces := if places.isEmpty then afterWhole else afterWhole.drop (places.length + 1)
    let power := exponentPart afterPlaces
    let rest := if power.isEmpty then afterPlaces else afterPlaces.drop (power.length + 1)
    if h : rest.length < cs.length then
      if places.isEmpty && power.isEmpty then
        if maxDigits < whole.length then .error ⟨.tooManyDigits whole.length, cs.length⟩
        else .ok ⟨.int (Binary64.signed negative (digitsValue whole)), rest, h⟩
      else
        let exponent := match power with
          | [] => 0
          | _ => let (s, d) := splitSign power; Binary64.signed s (digitsValue d)
        .ok ⟨.float (Binary64.ofDecimal negative (digitsValue (whole ++ places))
          (exponent - places.length)), rest, h⟩
    else .error ⟨.value, cs.length⟩

def words : List (List Char × Json) := [
  ("null".toList, .null), ("true".toList, .bool true), ("false".toList, .bool false),
  ("NaN".toList, .float .nan), ("Infinity".toList, .float (.infinite false)),
  ("-Infinity".toList, .float (.infinite true))]

def word? (cs : List Char) : Option (Parsed Json cs.length) :=
  words.findSome? fun (w, v) =>
    match stripPrefix? w cs with
    | some rest => if h : rest.length < cs.length then some ⟨v, rest, h⟩ else none
    | none => none

mutual

/-- A value at the start of the text. -/
def value (cs : List Char) : Except Stop (Parsed Json cs.length) :=
  match cs with
  | [] => .error ⟨.value, 0⟩
  | '"' :: rest =>
    match textBody (rest.length + 1) rest with
    | .error e => .error e
    | .ok ⟨v, r, h⟩ => .ok ⟨.str (String.ofList v), r, h⟩
  | '[' :: rest =>
    have := skipBlank_length rest
    match items (skipBlank rest) with
    | .error e => .error e
    | .ok ⟨v, r, h⟩ => .ok ⟨.arr v, r, by simp only [List.length_cons]; omega⟩
  | '\x7b' :: rest =>
    have := skipBlank_length rest
    match members (skipBlank rest) with
    | .error e => .error e
    | .ok ⟨v, r, h⟩ => .ok ⟨.obj (Table.ofEntries v), r, by simp only [List.length_cons]; omega⟩
  | c :: rest =>
    match word? (c :: rest) with
    | some p => .ok p
    | none => number (c :: rest)
  termination_by 3 * cs.length
  decreasing_by all_goals simp only [List.length_cons]; omega

def items (cs : List Char) : Except Stop (Parsed (List Json) cs.length) :=
  match cs with
  | ']' :: rest => .ok ⟨[], rest, by simp⟩
  | c :: rest => someItems (c :: rest)
  | [] => someItems []
  termination_by 3 * cs.length + 2

def someItems (cs : List Char) : Except Stop (Parsed (List Json) cs.length) :=
  match value cs with
  | .error e => .error e
  | .ok ⟨v, r, h⟩ =>
    have b₁ := skipBlank_length r
    match hs : skipBlank r with
    | ']' :: rest =>
      have e₁ : (skipBlank r).length = rest.length + 1 := by rw [hs, List.length_cons]
      .ok ⟨[v], rest, by omega⟩
    | ',' :: rest =>
      have e₁ : (skipBlank r).length = rest.length + 1 := by rw [hs, List.length_cons]
      have b₂ := skipBlank_length rest
      match someItems (skipBlank rest) with
      | .error e => .error e
      | .ok ⟨vs, r', h'⟩ => .ok ⟨v :: vs, r', by omega⟩
    | other => .error ⟨.comma, other.length⟩
  termination_by 3 * cs.length + 1

def members (cs : List Char) : Except Stop (Parsed (List (String × Json)) cs.length) :=
  match cs with
  | '\x7d' :: rest => .ok ⟨[], rest, by simp⟩
  | c :: rest => someMembers (c :: rest)
  | [] => someMembers []
  termination_by 3 * cs.length + 1

def someMembers (cs : List Char) : Except Stop (Parsed (List (String × Json)) cs.length) :=
  match hc : cs with
  | '"' :: start =>
    have e₀ : cs.length = start.length + 1 := by rw [hc, List.length_cons]
    match textBody (start.length + 1) start with
    | .error e => .error e
    | .ok ⟨k, r₁, h₁⟩ =>
      have b₁ := skipBlank_length r₁
      match hs₁ : skipBlank r₁ with
      | ':' :: r₂ =>
        have e₁ : (skipBlank r₁).length = r₂.length + 1 := by rw [hs₁, List.length_cons]
        have b₂ := skipBlank_length r₂
        match value (skipBlank r₂) with
        | .error e => .error e
        | .ok ⟨v, r₃, h₃⟩ =>
          have b₃ := skipBlank_length r₃
          match hs₃ : skipBlank r₃ with
          | '\x7d' :: rest =>
            have e₃ : (skipBlank r₃).length = rest.length + 1 := by rw [hs₃, List.length_cons]
            .ok ⟨[(String.ofList k, v)], rest, by simp only [List.length_cons]; omega⟩
          | ',' :: rest =>
            have e₃ : (skipBlank r₃).length = rest.length + 1 := by rw [hs₃, List.length_cons]
            have b₄ := skipBlank_length rest
            match someMembers (skipBlank rest) with
            | .error e => .error e
            | .ok ⟨vs, r', h'⟩ =>
              .ok ⟨(String.ofList k, v) :: vs, r', by simp only [List.length_cons]; omega⟩
          | other => .error ⟨.comma, other.length⟩
      | other => .error ⟨.colon, other.length⟩
  | other => .error ⟨.propertyName, other.length⟩
  termination_by 3 * cs.length

end

/-- A problem with its place in the text. -/
structure ReadError where
  problem : Problem
  line : Nat
  column : Nat
  position : Nat
deriving DecidableEq

namespace ReadError

/-- Line and column of the character at `position`, both counted from one. -/
def locate (cs : List Char) (problem : Problem) (position : Nat) : ReadError :=
  let before := cs.take position
  ⟨problem, before.count '\n' + 1, (before.reverse.takeWhile (· != '\n')).length + 1, position⟩

def isNotation (e : ReadError) : Bool :=
  match e.problem with
  | .tooManyDigits _ => false
  | _ => true

def message (e : ReadError) : String :=
  if e.isNotation then
    e.problem.message ++ ": line " ++ toString e.line ++ " column " ++ toString e.column
      ++ " (char " ++ toString e.position ++ ")"
  else e.problem.message

end ReadError

def read (s : String) : Except ReadError Json :=
  let cs := s.toList
  if cs.head? == some '\uFEFF' then .error (.locate cs .byteOrderMark 0)
  else match value (skipBlank cs) with
    | .error e => .error (.locate cs e.problem (cs.length - e.left))
    | .ok p =>
      match skipBlank p.rest with
      | [] => .ok p.value
      | rest => .error (.locate cs .extraData (cs.length - rest.length))

end ViewWriter.Json
