/-!
Floating-point numbers of 53 significant bits. A finite number is a whole number of units of
2^-1074, so order and equality are those of the integers and every rounding is explicit.
-/

namespace ViewWriter

inductive Binary64 where
  | nan
  | infinite (negative : Bool)
  | finite (negative : Bool) (units : Nat)
deriving DecidableEq, Repr

def powerOfTwo (n : Nat) : Nat := Nat.pow 2 n

def powerOfTen (n : Nat) : Nat := Nat.pow 10 n

namespace Binary64

/-- Units in one. -/
def unit : Nat := powerOfTwo 1074

/-- The least magnitude that is too large to be finite. -/
def overflow : Nat := powerOfTwo (1024 + 1074)

def bitLength (n : Nat) : Nat := if n = 0 then 0 else n.log2 + 1

/-- The quotient `num / den` rounded to the nearest whole number, a tie to the even one. -/
def roundDiv (num den : Nat) : Nat :=
  let q := num / den
  let r := num % den
  if 2 * r < den then q else if den < 2 * r then q + 1 else if q % 2 = 0 then q else q + 1

/-- The spacing of the numbers around `num / den` units. -/
def spacing (num den : Nat) : Nat := powerOfTwo (bitLength (num / den) - 53)

/-- The nearest number to `num / den`, where `den` is positive. -/
def ofQuotient (negative : Bool) (num den : Nat) : Binary64 :=
  let scaled := num * unit
  let step := spacing scaled den
  let units := roundDiv scaled (den * step) * step
  if units < overflow then .finite negative units else .infinite negative

def zero : Binary64 := .finite false 0
def one : Binary64 := .finite false unit

/-- The nearest number to an integer, unless the integer is out of range. -/
def ofInt? (i : Int) : Option Binary64 :=
  match ofQuotient (i < 0) i.natAbs 1 with
  | .finite s u => some (.finite s u)
  | _ => none

/-- The nearest number to `digits · 10 ^ exponent`. -/
def ofDecimal (negative : Bool) (digits : Nat) (exponent : Int) : Binary64 :=
  let size : Int := (Nat.toDigits 10 digits).length + exponent
  if digits = 0 || size < -400 then .finite negative 0
  else if 400 < size then .infinite negative
  else match exponent with
    | .ofNat n => ofQuotient negative (digits * powerOfTen n) 1
    | .negSucc n => ofQuotient negative digits (powerOfTen (n + 1))

def signed (negative : Bool) (n : Nat) : Int := if negative then -(n : Int) else n

/-- The order of two numbers that are not `nan`, as units; the infinities lie beyond every
finite number. -/
def rank? : Binary64 → Option Int
  | nan => none
  | infinite s => some (signed s (2 * overflow))
  | finite s u => some (signed s u)

def lt (x y : Binary64) : Bool :=
  match x.rank?, y.rank? with
  | some a, some b => a < b
  | _, _ => false

def le (x y : Binary64) : Bool :=
  match x.rank?, y.rank? with
  | some a, some b => a ≤ b
  | _, _ => false

/-- Equality of values: both zeros are equal and `nan` equals nothing. -/
def eq (x y : Binary64) : Bool :=
  match x.rank?, y.rank? with
  | some a, some b => a = b
  | _, _ => false

def neg : Binary64 → Binary64
  | nan => nan
  | infinite s => infinite (!s)
  | finite s u => finite (!s) u

def isFinite : Binary64 → Bool
  | finite _ _ => true
  | _ => false

/-- The integer that a finite number is equal to. -/
def toInt? : Binary64 → Option Int
  | finite s u => if u % unit = 0 then some (signed s (u / unit)) else none
  | _ => none

/-- The integer part of a finite number. -/
def truncate? : Binary64 → Option Int
  | finite s u => some (signed s (u / unit))
  | _ => none

/-- The nearest multiple of `10 ^ -places`, a tie to the even one. -/
def roundPlaces (places : Nat) : Binary64 → Binary64
  | finite s u => ofQuotient s (roundDiv (u * powerOfTen places) unit) (powerOfTen places)
  | x => x

/-- Keeps a number within `[0, 1]`; `nan` stays as it is. -/
def clampUnit (x : Binary64) : Binary64 :=
  let x := if x.lt zero then zero else x
  if one.lt x then one else x

end Binary64

end ViewWriter
