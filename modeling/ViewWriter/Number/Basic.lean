import ViewWriter.Number.Shortest

/-!
Numbers as data: integers of any size and floating-point numbers, compared by their exact values.
-/

namespace ViewWriter

inductive Number where
  | int (i : Int)
  | float (x : Binary64)
deriving DecidableEq, Repr

namespace Number

/-- The place of a number on the line of integers, in units of 2^-1074, with both ends. -/
inductive Rank where
  | bottom
  | units (n : Int)
  | top
deriving DecidableEq

def Rank.lt : Rank → Rank → Bool
  | .top, _ => false
  | _, .bottom => false
  | .units a, .units b => a < b
  | _, _ => true

def rank? : Number → Option Rank
  | int i => some (.units (i * Binary64.unit))
  | float .nan => none
  | float (.infinite s) => some (if s then .bottom else .top)
  | float (.finite s u) => some (.units (Binary64.signed s u))

def lt (a b : Number) : Bool :=
  match a.rank?, b.rank? with
  | some x, some y => x.lt y
  | _, _ => false

/-- Equality of values: an integer equals the floating-point number of the same value. -/
def eq (a b : Number) : Bool :=
  match a.rank?, b.rank? with
  | some x, some y => x == y
  | _, _ => false

def le (a b : Number) : Bool := a.lt b || a.eq b

def isZero (a : Number) : Bool := a.eq (.int 0)

/-- The nearest floating-point number, unless the integer is out of range. -/
def toBinary64? : Number → Option Binary64
  | int i => Binary64.ofInt? i
  | float x => some x

def write (f : NumberFormat) : Number → String
  | int i => toString i
  | float x => f.write x

/-- A floating-point number that is whole is written like an integer. -/
def writeWhole (f : NumberFormat) (a : Number) : String :=
  match a with
  | int i => toString i
  | float x => match x.toInt? with
    | some i => toString i
    | none => f.write x

end Number

end ViewWriter
