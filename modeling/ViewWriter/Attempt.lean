/-!
Steps that are taken one after the other until one fails. Main statement: a run that fails has
taken every step before the failing one.
-/

namespace ViewWriter

/-- The state that a run of steps reached, and what stopped it. -/
structure Attempt (σ ε : Type) where
  state : σ
  failure : Option ε

namespace Attempt

variable {σ ε α : Type}

/-- A single step that either takes effect as a whole or not at all. -/
def single (s : σ) : Except ε σ → Attempt σ ε
  | .ok s' => ⟨s', none⟩
  | .error e => ⟨s, some e⟩

/-- Takes a step for each element until one fails; the steps before it keep their effect. -/
def each (step : σ → α → Except ε σ) (s : σ) : List α → Attempt σ ε
  | [] => ⟨s, none⟩
  | a :: rest =>
    match step s a with
    | .ok s' => each step s' rest
    | .error e => ⟨s, some e⟩

/-- Goes on with `next` unless something failed. -/
def andThen (first : Attempt σ ε) (next : σ → Attempt σ ε) : Attempt σ ε :=
  match first.failure with
  | none => next first.state
  | some _ => first

def toExcept (a : Attempt σ ε) : Except ε σ :=
  match a.failure with
  | none => .ok a.state
  | some e => .error e

theorem each_append (step : σ → α → Except ε σ) (s : σ) (xs ys : List α) :
    each step s (xs ++ ys) = (each step s xs).andThen fun s' => each step s' ys := by
  induction xs generalizing s with
  | nil => rfl
  | cons a rest ih =>
    simp only [List.cons_append, each]
    split
    · exact ih _
    · rfl

end Attempt

end ViewWriter
