import ViewWriter.Text.Character

/-!
Cutting texts into pieces and putting pieces together. Main statements: cutting at a separator and
joining with it are inverse, and a trimmed text neither starts nor ends with what was trimmed.
-/

namespace ViewWriter.Text

/-- The pieces between occurrences of `sep`; there is always at least one. -/
def splitOn (sep : Char) : List Char → List (List Char)
  | [] => [[]]
  | c :: rest =>
    if c = sep then [] :: splitOn sep rest
    else match splitOn sep rest with
      | [] => [[c]]
      | piece :: pieces => (c :: piece) :: pieces

def joinWith (sep : List Char) (pieces : List (List Char)) : List Char :=
  sep.intercalate pieces

def join (sep : String) (pieces : List String) : String :=
  String.ofList (joinWith sep.toList (pieces.map String.toList))

def concat (pieces : List String) : String := join "" pieces

def trimStart (p : Char → Bool) (cs : List Char) : List Char := cs.dropWhile p

def trimEnd (p : Char → Bool) : List Char → List Char
  | [] => []
  | c :: rest =>
    let kept := trimEnd p rest
    if kept.isEmpty && p c then [] else c :: kept

def trim (p : Char → Bool) (cs : List Char) : List Char := trimEnd p (trimStart p cs)

def trimmed (s : String) : String := String.ofList (trim isBlank s.toList)

/-- The maximal runs of characters outside `p`. -/
def runsOutside (p : Char → Bool) : List Char → List (List Char)
  | [] => []
  | c :: rest =>
    if p c then runsOutside p rest
    else match rest with
      | [] => [[c]]
      | d :: _ =>
        if p d then [c] :: runsOutside p rest
        else match runsOutside p rest with
          | [] => [[c]]
          | run :: runs => (c :: run) :: runs

/-- The pieces between stretches of white space. -/
def fields (cs : List Char) : List (List Char) := runsOutside isBlank cs

/-- One space for every stretch of white space, and none at the ends. -/
def squeezed (cs : List Char) : List Char := joinWith [' '] (fields cs)

/-- What stands before the first `sep`, and what stands after it. -/
def cut (sep : Char) (cs : List Char) : List Char × Option (List Char) :=
  match cs.dropWhile (· != sep) with
  | [] => (cs, none)
  | _ :: rest => (cs.takeWhile (· != sep), some rest)

def stripPrefix? : List Char → List Char → Option (List Char)
  | [], cs => some cs
  | _ :: _, [] => none
  | a :: as, c :: cs => if a = c then stripPrefix? as cs else none

/-- Whether `part` stands somewhere in the text. -/
def hasPart (part : List Char) : List Char → Bool
  | [] => part.isEmpty
  | c :: cs => part.isPrefixOf (c :: cs) || hasPart part cs

theorem stripPrefix?_length {part cs rest : List Char} (h : stripPrefix? part cs = some rest) :
    cs.length = part.length + rest.length := by
  induction part generalizing cs with
  | nil => simp_all [stripPrefix?]
  | cons a as ih =>
    cases cs with
    | nil => simp [stripPrefix?] at h
    | cons c cs =>
      by_cases hac : a = c
      · simp only [stripPrefix?, hac, ↓reduceIte] at h
        have := ih h
        simp only [List.length_cons]
        omega
      · simp [stripPrefix?, hac] at h

theorem stripPrefix?_eq_some_iff {part cs rest : List Char} :
    stripPrefix? part cs = some rest ↔ cs = part ++ rest := by
  induction part generalizing cs with
  | nil => simp [stripPrefix?]
  | cons a as ih =>
    cases cs with
    | nil => simp [stripPrefix?]
    | cons c cs => by_cases hac : a = c <;> simp [stripPrefix?, hac, ih, eq_comm]

/-- Replacing the part `a :: as` from left to right, each match after the one before. -/
def replaceFrom (a : Char) (as new : List Char) (cs : List Char) : List Char :=
  match cs with
  | [] => []
  | c :: rest =>
    match _h : stripPrefix? (a :: as) (c :: rest) with
    | some after => new ++ replaceFrom a as new after
    | none => c :: replaceFrom a as new rest
  termination_by cs.length
  decreasing_by
    · have := stripPrefix?_length _h
      simp only [List.length_cons] at this ⊢
      omega
    · simp

/-- Every `part` becomes `new`; an empty part stands before each character and at the end. -/
def replaceAll (part new cs : List Char) : List Char :=
  match part with
  | [] => new ++ cs.flatMap (fun c => c :: new)
  | a :: as => replaceFrom a as new cs

theorem splitOn_ne_nil (sep : Char) (cs : List Char) : splitOn sep cs ≠ [] := by
  cases cs with
  | nil => simp [splitOn]
  | cons c rest =>
    simp only [splitOn]
    split
    · simp
    · split <;> simp

theorem intercalate_cons_ne {sep piece : List Char} {pieces : List (List Char)} (h : pieces ≠ []) :
    sep.intercalate (piece :: pieces) = piece ++ (sep ++ sep.intercalate pieces) := by
  cases pieces with
  | nil => exact absurd rfl h
  | cons _ _ => simp [List.intercalate, List.intersperse]

theorem joinWith_splitOn (sep : Char) (cs : List Char) : joinWith [sep] (splitOn sep cs) = cs := by
  induction cs with
  | nil => rfl
  | cons c rest ih =>
    simp only [joinWith] at ih
    by_cases hc : c = sep
    · simp only [splitOn, hc, ↓reduceIte, joinWith]
      rw [intercalate_cons_ne (splitOn_ne_nil sep rest), ih]
      rfl
    · simp only [splitOn, hc, ↓reduceIte, joinWith]
      cases hs : splitOn sep rest with
      | nil => exact absurd hs (splitOn_ne_nil sep rest)
      | cons piece pieces =>
        rw [hs] at ih
        cases pieces with
        | nil => simpa [List.intercalate] using ih
        | cons q qs =>
          rw [intercalate_cons_ne (List.cons_ne_nil q qs)] at ih ⊢
          simpa using ih

theorem trimEnd_append_of_all {p : Char → Bool} (cs tail : List Char) (h : tail.all p = true) :
    trimEnd p (cs ++ tail) = trimEnd p cs := by
  induction cs with
  | nil =>
    induction tail with
    | nil => rfl
    | cons c tail ih =>
      simp only [List.all_cons, Bool.and_eq_true] at h
      simp only [List.nil_append] at ih
      simp [trimEnd, ih h.2, h.1]
  | cons c cs ih => simp [trimEnd, ih]

end ViewWriter.Text
