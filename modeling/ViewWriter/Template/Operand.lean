import ViewWriter.Text.Split

/-!
Operands of template tags: paths, names and double-quoted texts. A condition is an operand that holds, or two
operands that are equal or differ.
-/

namespace ViewWriter.Template

open ViewWriter.Text

/-- What follows the closing mark of a quoted text, whose inside the list starts with. A backslash
takes the next character with it, but not a line break. -/
def afterQuoted? : List Char → Option (List Char × List Char)
  | [] => none
  | '"' :: rest => some (['"'], rest)
  | '\\' :: c :: rest =>
    if c == '\n' then none else (afterQuoted? rest).map fun r => ('\\' :: c :: r.1, r.2)
  | c :: rest => if c == '\\' then none else (afterQuoted? rest).map fun r => (c :: r.1, r.2)

theorem afterQuoted?_length {cs text rest : List Char} (h : afterQuoted? cs = some (text, rest)) :
    rest.length < cs.length := by
  fun_induction afterQuoted? cs generalizing text rest with
  | case1 => simp at h
  | case2 r => simp_all
  | case3 => simp at h
  | case4 c r _ ih =>
    obtain ⟨⟨t, after⟩, hp, he⟩ := Option.map_eq_some_iff.1 h
    have := ih hp
    simp only [Prod.mk.injEq] at he
    simp only [List.length_cons, ← he.2]
    omega
  | case5 => simp at h
  | case6 c r _ _ _ ih =>
    obtain ⟨⟨t, after⟩, hp, he⟩ := Option.map_eq_some_iff.1 h
    have := ih hp
    simp only [Prod.mk.injEq] at he
    simp only [List.length_cons, ← he.2]
    omega

/-- A quoted text or a run of characters in `p`, at the start of the text. -/
def operand? (p : Char → Bool) (cs : List Char) : Option (List Char × List Char) :=
  match cs with
  | [] => none
  | '"' :: rest => (afterQuoted? rest).map fun r => ('"' :: r.1, r.2)
  | c :: rest => if p c then some (c :: rest.takeWhile p, rest.dropWhile p) else none

theorem operand?_length {p : Char → Bool} {cs text rest : List Char}
    (h : operand? p cs = some (text, rest)) : rest.length < cs.length := by
  unfold operand? at h
  split at h
  · simp at h
  · rename_i r
    obtain ⟨⟨t, after⟩, hq, he⟩ := Option.map_eq_some_iff.1 h
    have := afterQuoted?_length hq
    simp only [Prod.mk.injEq] at he
    simp only [List.length_cons, ← he.2]
    omega
  · rename_i c r _
    split at h
    · simp only [Option.some.injEq, Prod.mk.injEq] at h
      have := (List.dropWhile_suffix (l := r) p).length_le
      simp only [List.length_cons, ← h.2]
      omega
    · simp at h

def isArgumentChar (c : Char) : Bool := !isBlank c && c != '"'

/-- The arguments in a text that holds nothing but arguments and white space. -/
def arguments? (cs : List Char) : Option (List (List Char)) :=
  match _hb : cs.dropWhile isBlank with
  | [] => some []
  | c :: r =>
    match _h : operand? isArgumentChar (c :: r) with
    | none => none
    | some (arg, rest) => (arguments? rest).map (arg :: ·)
  termination_by cs.length
  decreasing_by
    have h₁ := operand?_length _h
    have h₂ := (List.dropWhile_suffix (l := cs) isBlank).length_le
    rw [_hb] at h₂
    omega

/-- Segments with points between them, the first of which starts like an identifier. -/
def isPath (cs : List Char) : Bool :=
  match splitOn '.' cs with
  | [] => false
  | first :: rest =>
    isIdentifier first && rest.all fun segment => !segment.isEmpty && segment.all isIdentifierPart

inductive Condition where
  | holds (operand : String)
  | equal (left right : String)
  | differ (left right : String)
deriving DecidableEq, Repr

namespace Condition

def isComparedChar (c : Char) : Bool := !isBlank c && c != '"' && c != '=' && c != '!'

/-- Two operands with `==` or `!=` between them. -/
def comparison? (cs : List Char) : Option Condition := do
  let (left, rest) ← operand? isComparedChar (cs.dropWhile isBlank)
  let (make, rest) ← match rest.dropWhile isBlank with
    | '=' :: '=' :: rest => some (equal, rest)
    | '!' :: '=' :: rest => some (differ, rest)
    | _ => none
  let (right, rest) ← operand? isComparedChar (rest.dropWhile isBlank)
  if rest.all isBlank then some (make (String.ofList left) (String.ofList right)) else none

/-- What is neither a comparison nor a single operand never holds. -/
def parse (s : String) : Condition :=
  match comparison? s.toList with
  | some c => c
  | none => match arguments? s.toList with
    | some [_] => holds (trimmed s)
    | _ => holds "false"

end Condition

end ViewWriter.Template
