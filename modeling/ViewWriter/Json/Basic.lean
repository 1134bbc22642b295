import ViewWriter.Fault
import ViewWriter.Number.Basic
import ViewWriter.Number.Reading
import ViewWriter.Table

/-!
Values of documents, settings and template contexts. Objects keep the order of their keys. Numbers, truth
values and texts stand for numbers.
-/

namespace ViewWriter

inductive Json where
  | null
  | bool (b : Bool)
  | int (i : Int)
  | float (x : Binary64)
  | str (s : String)
  | arr (items : List Json)
  | obj (fields : List (String × Json))

namespace Json

instance : Inhabited Json := ⟨.null⟩

def ofBool (b : Bool) : Json := .bool b
def ofNat (n : Nat) : Json := .int n
def ofStrings (xs : List String) : Json := .arr (xs.map .str)
def ofOption : Option String → Json
  | some s => .str s
  | none => .null

/-- The name of a value's kind in messages. -/
def kind : Json → String
  | null => "NoneType"
  | bool _ => "bool"
  | int _ => "int"
  | float _ => "float"
  | str _ => "str"
  | arr _ => "list"
  | obj _ => "dict"

def isNull : Json → Bool
  | null => true
  | _ => false

/-- Truth values count as the integers zero and one. -/
def number? : Json → Option Number
  | bool b => some (.int (if b then 1 else 0))
  | int i => some (.int i)
  | float x => some (.float x)
  | _ => none

/-- Whether a value counts as given: not null, false, zero or empty. -/
def isGiven : Json → Bool
  | null => false
  | bool b => b
  | int i => i != 0
  | float x => !(Number.float x).isZero
  | str s => s != ""
  | arr items => !items.isEmpty
  | obj fields => !fields.isEmpty

/-- The value itself, or `other` where it does not count as given. -/
def orElse (v other : Json) : Json := if v.isGiven then v else other

def fields? : Json → Option (Table Json)
  | obj fields => some fields
  | _ => none

def string? : Json → Option String
  | str s => some s
  | _ => none

/-- A member of an object; null where it is missing. -/
def member (fields : Table Json) (key : String) : Json := (fields.get? key).getD .null

/-- The elements met when a value is gone through: items, characters or keys. -/
def elements : Json → Except Fault (List Json)
  | arr items => .ok items
  | str s => .ok (s.toList.map fun c => .str (String.singleton c))
  | obj fields => .ok (fields.map fun e => .str e.1)
  | _ => .error .kind

mutual

/-- Equality of values: numbers by value, objects whatever the order of their keys. -/
def eq : Json → Json → Bool
  | null, null => true
  | str a, str b => a == b
  | arr xs, arr ys => eqItems xs ys
  | obj xs, obj ys => xs.length == ys.length && eqFields xs ys
  | a, b => match a.number?, b.number? with
    | some x, some y => x.eq y
    | _, _ => false

def eqItems : List Json → List Json → Bool
  | [], [] => true
  | x :: xs, y :: ys => eq x y && eqItems xs ys
  | _, _ => false

def eqFields : List (String × Json) → List (String × Json) → Bool
  | [], _ => true
  | (k, x) :: xs, ys =>
    (match ys.lookup k with
    | some y => eq x y
    | none => false) && eqFields xs ys

end

/-- A value without its items or fields. -/
inductive Head where
  | null
  | bool (b : Bool)
  | int (i : Int)
  | float (x : Binary64)
  | str (s : String)
  | arr
  | obj
deriving DecidableEq

def head : Json → Head
  | null => .null
  | bool b => .bool b
  | int i => .int i
  | float x => .float x
  | str s => .str s
  | arr _ => .arr
  | obj _ => .obj

mutual

/-- Equality of values as they are, in which numbers of different kinds and objects with their keys in
different orders differ. -/
def same : Json → Json → Bool
  | arr xs, arr ys => sameItems xs ys
  | obj xs, obj ys => sameFields xs ys
  | v, w => v.head == w.head

def sameItems : List Json → List Json → Bool
  | [], [] => true
  | x :: xs, y :: ys => same x y && sameItems xs ys
  | _, _ => false

def sameFields : List (String × Json) → List (String × Json) → Bool
  | [], [] => true
  | (k, x) :: xs, (l, y) :: ys => k == l && same x y && sameFields xs ys
  | _, _ => false

end

mutual

theorem same_iff (v w : Json) : same v w = true ↔ v = w := by
  cases v with
  | arr xs =>
    cases w with
    | arr ys => rw [same, sameItems_iff xs ys, arr.injEq]
    | _ => simp [same, head]
  | obj xs =>
    cases w with
    | obj ys => rw [same, sameFields_iff xs ys, obj.injEq]
    | _ => simp [same, head]
  | _ => cases w <;> simp [same, head]

theorem sameItems_iff (xs ys : List Json) : sameItems xs ys = true ↔ xs = ys := by
  cases xs with
  | nil => cases ys <;> simp [sameItems]
  | cons x xs =>
    cases ys with
    | nil => simp [sameItems]
    | cons y ys => rw [sameItems, Bool.and_eq_true, same_iff x y, sameItems_iff xs ys, List.cons.injEq]

theorem sameFields_iff (xs ys : List (String × Json)) : sameFields xs ys = true ↔ xs = ys := by
  cases xs with
  | nil => cases ys <;> simp [sameFields]
  | cons x xs =>
    obtain ⟨k, x⟩ := x
    cases ys with
    | nil => simp [sameFields]
    | cons y ys =>
      obtain ⟨l, y⟩ := y
      rw [sameFields, Bool.and_eq_true, Bool.and_eq_true, same_iff x y, sameFields_iff xs ys, beq_iff_eq,
        List.cons.injEq, Prod.mk.injEq]

end

instance : DecidableEq Json := fun v w => decidable_of_iff (same v w = true) (same_iff v w)

/-- The whole number that a value stands for; a number loses its places. -/
def toInteger : Json → Except Fault Int
  | bool b => .ok (if b then 1 else 0)
  | int i => .ok i
  | float x => match x.truncate? with
    | some i => .ok i
    | none => .error (if x == .nan then .content else .range)
  | str s => match Number.integer? s with
    | some i => .ok i
    | none => .error .content
  | _ => .error .kind

/-- The floating-point number that a value stands for. -/
def toReal : Json → Except Fault Binary64
  | bool b => .ok (if b then .one else .zero)
  | int i => match Binary64.ofInt? i with
    | some x => .ok x
    | none => .error .range
  | float x => .ok x
  | str s => match Number.real? s with
    | some x => .ok x
    | none => .error .content
  | _ => .error .kind

end Json

end ViewWriter
