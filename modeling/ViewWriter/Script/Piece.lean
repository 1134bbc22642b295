import ViewWriter.Text.Lines

/-!
A script cut at its line starts into what a matcher finds there and what it passes over. Main
statement: the pieces put together are the script.
-/

namespace ViewWriter.Script

open ViewWriter.Text

def isMargin (c : Char) : Bool := c == ' ' || c == '\t'

/-- A match at the start of a text, with what it took and what is left. -/
structure Match (α : Type) where
  value : α
  raw : List Char
  rest : List Char

/-- The rest of a line that holds nothing more than a margin, and its break. -/
def lineEnd? (cs : List Char) : Option (Match Unit) :=
  let margin := cs.takeWhile isMargin
  match cs.dropWhile isMargin with
  | [] => some ⟨(), margin, []⟩
  | '\n' :: rest => some ⟨(), margin ++ ['\n'], rest⟩
  | _ => none

inductive Piece (α : Type) where
  | plain (cs : List Char)
  | found (value : α) (raw : List Char)

namespace Piece

variable {α β : Type}

def raw : Piece α → List Char
  | plain cs => cs
  | found _ raw => raw

end Piece

/-- The first line with its break, and the lines after it. -/
def splitLine : List Char → List Char × List Char
  | [] => ([], [])
  | '\n' :: rest => (['\n'], rest)
  | c :: rest => let (line, after) := splitLine rest; (c :: line, after)

theorem splitLine_append (cs : List Char) : (splitLine cs).1 ++ (splitLine cs).2 = cs := by
  fun_induction splitLine cs <;> simp_all

theorem splitLine_length (c : Char) (cs : List Char) :
    (splitLine (c :: cs)).2.length < (c :: cs).length := by
  have h := congrArg List.length (splitLine_append (c :: cs))
  have hpos : 0 < (splitLine (c :: cs)).1.length := by
    unfold splitLine
    split <;> simp_all
  simp only [List.length_append] at h
  omega

/-- The pieces of a script. A match counts when it takes something. -/
def pieces {α : Type} (find? : List Char → Option (Match α)) (cs : List Char) : List (Piece α) :=
  match cs with
  | [] => []
  | c :: rest =>
    match find? (c :: rest) with
    | some m =>
      if m.rest.length < (c :: rest).length then .found m.value m.raw :: pieces find? m.rest
      else .plain (splitLine (c :: rest)).1 :: pieces find? (splitLine (c :: rest)).2
    | none => .plain (splitLine (c :: rest)).1 :: pieces find? (splitLine (c :: rest)).2
  termination_by cs.length
  decreasing_by
    · assumption
    · exact splitLine_length c rest
    · exact splitLine_length c rest

/-- A stretch of a script, counted in characters. -/
structure Span where
  first : Nat
  last : Nat
  indent : List Char
deriving DecidableEq, Repr

/-- The places of what was found. -/
def found {α : Type} (start : Nat) : List (Piece α) → List (α × Nat × Nat)
  | [] => []
  | .plain cs :: rest => found (start + cs.length) rest
  | .found value raw :: rest =>
    (value, start, start + raw.length) :: found (start + raw.length) rest

def concatPieces {α : Type} (ps : List (Piece α)) : List Char := ps.flatMap Piece.raw

/-- A matcher that takes what it says it takes. -/
def IsFaithful {α : Type} (find? : List Char → Option (Match α)) : Prop :=
  ∀ cs m, find? cs = some m → m.raw ++ m.rest = cs

theorem concatPieces_pieces {α : Type} {find? : List Char → Option (Match α)}
    (h : IsFaithful find?) (cs : List Char) : concatPieces (pieces find? cs) = cs := by
  fun_induction pieces find? cs with
  | case1 => rfl
  | case2 c rest m hm _ ih =>
    simp only [concatPieces, List.flatMap_cons, Piece.raw] at ih ⊢
    rw [ih]
    exact h _ _ hm
  | case3 c rest m hm _ ih =>
    simp only [concatPieces, List.flatMap_cons, Piece.raw] at ih ⊢
    rw [ih]
    exact splitLine_append _
  | case4 c rest hm ih =>
    simp only [concatPieces, List.flatMap_cons, Piece.raw] at ih ⊢
    rw [ih]
    exact splitLine_append _

end ViewWriter.Script
