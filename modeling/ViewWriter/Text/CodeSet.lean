/-!
Sets of characters given by the code points at which membership changes.
-/

namespace ViewWriter.Text

/-- A set of code points: below the first change nothing is a member, and each change switches. -/
structure CodeSet where
  changes : List Nat

namespace CodeSet

def containsFrom : List Nat → Bool → Nat → Bool
  | [], inside, _ => inside
  | c :: rest, inside, n => if n < c then inside else containsFrom rest (!inside) n

def contains (s : CodeSet) (c : Char) : Bool :=
  containsFrom s.changes false c.toNat

theorem contains_of_lt_first {n : Nat} {rest : List Nat} {c : Char} (h : c.toNat < n) :
    (CodeSet.mk (n :: rest)).contains c = false := by
  simp [contains, containsFrom, h]

end CodeSet

/-- A stretch of letters whose other-case forms advance in step with them. -/
structure CaseRun where
  first : Nat
  last : Nat
  step : Nat
  target : Nat

namespace CaseRun

def image? (r : CaseRun) (n : Nat) : Option Nat :=
  if r.first ≤ n ∧ n ≤ r.last ∧ (n - r.first) % r.step = 0 then some (r.target + (n - r.first))
  else none

end CaseRun

end ViewWriter.Text
