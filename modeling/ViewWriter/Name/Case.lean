import ViewWriter.Text.Case
import ViewWriter.Text.Split

/-!
Words of a name in any spelling, and the spellings of a name from its words: `userCard`, `user-card` and
`USER_CARD` have the same words.
-/

namespace ViewWriter

inductive NameCase where
  | snake
  | camel
  | pascal
  | kebab
deriving DecidableEq, Repr

namespace Name

open ViewWriter.Text

/-- A new word begins between `a` and `b`, where `next` follows `b`. -/
def isBoundary (a b : Char) (next : Option Char) : Bool :=
  isAsciiUpper b &&
    (isAsciiLower a || isAsciiDigit a || (isAsciiUpper a && (next.map isAsciiLower).getD false))

/-- The words of a name in small letters. -/
def wordChars : List Char → List (List Char)
  | [] => []
  | c :: rest =>
    if !isAsciiAlphanumeric c then wordChars rest
    else match rest with
      | [] => [[asciiLower c]]
      | d :: more =>
        if !isAsciiAlphanumeric d || isBoundary c d more.head? then [asciiLower c] :: wordChars rest
        else match wordChars rest with
          | [] => [[asciiLower c]]
          | word :: words => (asciiLower c :: word) :: words

def words (name : String) : List String := (wordChars name.toList).map String.ofList

theorem wordChars_ne_nil {cs word : List Char} (h : word ∈ wordChars cs) : word ≠ [] := by
  induction cs generalizing word with
  | nil => simp [wordChars] at h
  | cons c rest ih =>
    simp only [wordChars] at h
    split at h
    · exact ih h
    · split at h
      · simp_all
      · split at h
        · rcases List.mem_cons.1 h with rfl | h
          · simp
          · exact ih h
        · split at h
          · simp_all
          · rename_i heq
            rcases List.mem_cons.1 h with rfl | h
            · simp
            · exact ih (heq ▸ List.mem_cons_of_mem _ h)

def capitalizeChars : List Char → List Char
  | [] => []
  | c :: rest => asciiUpper c :: rest

def snakeChars (cs : List Char) : List Char := joinWith ['_'] (wordChars cs)
def kebabChars (cs : List Char) : List Char := joinWith ['-'] (wordChars cs)
def pascalChars (cs : List Char) : List Char := (wordChars cs).flatMap capitalizeChars

def camelChars (cs : List Char) : List Char :=
  match pascalChars cs with
  | [] => []
  | c :: rest => asciiLower c :: rest

def snake (name : String) : String := String.ofList (snakeChars name.toList)
def kebab (name : String) : String := String.ofList (kebabChars name.toList)
def pascal (name : String) : String := String.ofList (pascalChars name.toList)
def camel (name : String) : String := String.ofList (camelChars name.toList)

def spell : NameCase → String → String
  | .snake => snake
  | .camel => camel
  | .pascal => pascal
  | .kebab => kebab

end Name

end ViewWriter
