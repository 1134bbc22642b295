/-!
Tables that keep the order in which their keys came in. Main statements: what a key holds after a
write, and that writing keeps the other keys and their order.
-/

namespace ViewWriter

/-- Entries by key, in the order in which the keys were first written. -/
abbrev Table (α : Type) := List (String × α)

namespace Table

variable {α β : Type}

def get? (t : Table α) (key : String) : Option α := t.lookup key

def has (t : Table α) (key : String) : Bool := (t.get? key).isSome

def keys (t : Table α) : List String := t.map (·.1)

/-- A known key keeps its place and a new one comes last. -/
def set (t : Table α) (key : String) (value : α) : Table α :=
  match t with
  | [] => [(key, value)]
  | (k, v) :: rest => if k == key then (k, value) :: rest else (k, v) :: set rest key value

/-- Writes every entry of `upper` over `lower`. -/
def merge (lower upper : Table α) : Table α :=
  upper.foldl (fun t e => t.set e.1 e.2) lower

/-- One entry for each key, the last value at the first place. -/
def ofEntries (entries : List (String × α)) : Table α := merge [] entries

def mapValues (f : α → β) (t : Table α) : Table β := t.map fun e => (e.1, f e.2)

@[simp] theorem get?_nil (key : String) : get? ([] : Table α) key = none := rfl

theorem get?_cons (k : String) (v : α) (t : Table α) (key : String) :
    get? ((k, v) :: t : Table α) key = if key = k then some v else get? t key := by
  change (match key == k with
    | true => some v
    | false => get? t key) = _
  by_cases h : key = k
  · simp [h]
  · have hb : (key == k) = false := by simpa using h
    simp [h, hb]

@[simp] theorem get?_set (t : Table α) (key other : String) (value : α) :
    (t.set key value).get? other = if other = key then some value else t.get? other := by
  induction t with
  | nil => simp [set, get?_cons]
  | cons e rest ih =>
    obtain ⟨k, v⟩ := e
    by_cases hk : k = key
    · subst hk
      by_cases ho : other = k <;> simp [set, get?_cons, ho]
    · by_cases ho : other = key
      · subst ho
        simp [set, hk, get?_cons, ih, Ne.symm hk]
      · simp [set, hk, get?_cons, ih, ho]

theorem keys_set (t : Table α) (key : String) (value : α) :
    (t.set key value).keys = if key ∈ t.keys then t.keys else t.keys ++ [key] := by
  induction t with
  | nil => simp [set, keys]
  | cons e rest ih =>
    obtain ⟨k, v⟩ := e
    simp only [keys] at ih
    by_cases hk : k = key
    · simp [set, keys, hk]
    · by_cases hm : key ∈ rest.map (·.1) <;> simp [set, keys, hk, Ne.symm hk, hm, ih]

end Table

end ViewWriter
