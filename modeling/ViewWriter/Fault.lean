/-!
What goes wrong when a value is used in a way that its kind does not allow.
-/

namespace ViewWriter

inductive Fault where
  /-- the value is of the wrong kind -/
  | kind
  /-- the value is of the right kind, but cannot be used -/
  | content
  /-- the value has no member of that name -/
  | member
  /-- the table has no such key -/
  | key
  /-- the list has no such place -/
  | place
  /-- the number is too large -/
  | range
deriving DecidableEq, Repr

end ViewWriter
