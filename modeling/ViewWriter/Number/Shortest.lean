import ViewWriter.Number.Binary64

/-!
The shortest decimal text of a floating-point number: the fewest digits that read back as the
number, and of those the nearest ones.
-/

namespace ViewWriter

/-- The decimal number `digits · 10 ^ exponent`. -/
structure Decimal where
  digits : Nat
  exponent : Int
deriving DecidableEq, Repr

namespace Decimal

def scale (n : Nat) : Int → Nat
  | .ofNat e => n * powerOfTen e
  | .negSucc _ => n

/-- Compares `digits · 10 ^ exponent` with `num / den` by whole numbers. -/
def compareQuotient (d : Decimal) (num den : Nat) : Ordering :=
  compare (scale d.digits d.exponent * den) (scale num (-d.exponent))

end Decimal

namespace Binary64

/-- The numbers that read back as `units`: `low ≤ 4 · units ≤ high`, ends included when `even`. -/
structure Neighbourhood where
  low : Nat
  high : Nat
  even : Bool

def neighbourhood (units : Nat) : Neighbourhood :=
  let step := powerOfTwo (bitLength units - 53)
  let below := if 53 < bitLength units && units == powerOfTwo units.log2 then step else 2 * step
  ⟨4 * units - below, 4 * units + 2 * step, (units / step) % 2 == 0⟩

def Neighbourhood.contains (r : Neighbourhood) (d : Decimal) : Bool :=
  let low := d.compareQuotient r.low (4 * unit)
  let high := d.compareQuotient r.high (4 * unit)
  (low == .gt || (r.even && low == .eq)) && (high == .lt || (r.even && high == .eq))

/-- The number `k` with `10 ^ (k - 1) ≤ units / 2 ^ 1074 < 10 ^ k`. -/
def magnitude (units : Nat) : Int :=
  ((Nat.toDigits 10 (units * powerOfTen 400 / unit)).length : Int) - 400

/-- The multiple of `10 ^ exponent` next below the number. -/
def gridBelow (units : Nat) (exponent : Int) : Nat :=
  match exponent with
  | .ofNat e => units / (unit * powerOfTen e)
  | .negSucc e => units * powerOfTen (e + 1) / unit

/-- Of `c` and `c + 1` the one that reads back; of both, the nearer one, where `half` is the order of
the middle between them and the number, and in the middle the even one. -/
def nearer? (c : Nat) (below above : Bool) (half : Ordering) : Option Nat :=
  match below, above with
  | false, false => none
  | true, false => some c
  | false, true => some (c + 1)
  | true, true =>
    match half with
    | .lt => some (c + 1)
    | .gt => some c
    | .eq => some (if c % 2 = 0 then c else c + 1)

/-- The nearer of the two multiples of `10 ^ exponent` around the number that read back. -/
def onGrid? (units : Nat) (exponent : Int) : Option Decimal :=
  let r := neighbourhood units
  let c := gridBelow units exponent
  (nearer? c (r.contains ⟨c, exponent⟩) (r.contains ⟨c + 1, exponent⟩)
    (Decimal.compareQuotient ⟨2 * c + 1, exponent⟩ (2 * units) unit)).map fun n => ⟨n, exponent⟩

/-- Seventeen digits always read back, so the last grid is never reached in vain. -/
def shortest (units : Nat) : Decimal :=
  let k := magnitude units
  ((List.range 17).findSome? fun n => onGrid? units (k - (Int.ofNat n + 1))).getD
    ⟨gridBelow units (k - 17), k - 17⟩

end Binary64

/-- How a number is written: exponents from `positionalFrom` up to `positionalTo`, both of the
first digit, are written without an exponent. -/
structure NumberFormat where
  positionalFrom : Int
  positionalTo : Int
  exponentDigits : Nat
  nan : String
  infinity : String

namespace NumberFormat

def padLeft (width : Nat) (cs : List Char) : List Char :=
  List.replicate (width - cs.length) '0' ++ cs

def exponentText (f : NumberFormat) (e : Int) : List Char :=
  'e' :: (if e < 0 then '-' else '+') :: padLeft f.exponentDigits (Nat.toDigits 10 e.natAbs)

/-- Digits without a zero at the end, the first of which stands for `10 ^ e`. -/
def digitsText (f : NumberFormat) (digits : List Char) (e : Int) : List Char :=
  if e < f.positionalFrom || f.positionalTo < e then
    match digits with
    | [] => []
    | d :: [] => d :: f.exponentText e
    | d :: rest => d :: '.' :: rest ++ f.exponentText e
  else match e with
    | .negSucc n => '0' :: '.' :: List.replicate n '0' ++ digits
    | .ofNat n =>
      let whole := digits.take (n + 1)
      let rest := digits.drop (n + 1)
      whole ++ List.replicate (n + 1 - whole.length) '0' ++ '.' :: (if rest.isEmpty then ['0'] else rest)

def decimalText (f : NumberFormat) (d : Decimal) : List Char :=
  let digits := Nat.toDigits 10 d.digits
  let kept := (digits.reverse.dropWhile (· == '0')).reverse
  f.digitsText kept (d.exponent + digits.length - 1)

def write (f : NumberFormat) : Binary64 → String
  | .nan => f.nan
  | .infinite s => (if s then "-" else "") ++ f.infinity
  | .finite s 0 => (if s then "-" else "") ++ "0.0"
  | .finite s u => (if s then "-" else "") ++ String.ofList (f.decimalText (Binary64.shortest u))

/-- Numbers in running text. -/
def plain : NumberFormat := ⟨-4, 15, 2, "nan", "inf"⟩

/-- Numbers in data and script source. -/
def source : NumberFormat := ⟨-4, 15, 2, "NaN", "Infinity"⟩

end NumberFormat

end ViewWriter
