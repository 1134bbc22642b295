import ViewWriter.Json.Printer
import ViewWriter.Number.Reading
import ViewWriter.Text.Lines

/-!
Settings of generators. A setting holds whatever value it was given; what it may be is decided
where it is used.
-/

namespace ViewWriter

structure Config where
  indentSize : Json := .int 2
  addComments : Json := .bool true
  defaultName : Json := .str "GeneratedComponent"
  classPrefix : Json := .null
  cssUnit : Json := .str "px"
  eagerThreshold : Json := .float (Binary64.ofDecimal false 8 (-1))
  dedupeMinLines : Json := .int 3
  preserveImports : Json := .arr [.str "React"]
  custom : Json := .obj []

namespace Config

/-- Wider margins are refused. -/
def maxIndent : Int := 2147483648

def indentUnit (c : Config) : Except Fault String :=
  match c.indentSize with
  | .int i => if maxIndent < i then .error .range else .ok (String.ofList (Text.spaces i))
  | .bool b => .ok (if b then " " else "")
  | _ => .error .kind

theorem eq_space_of_indentUnit {config : Config} {unit : String} (h : config.indentUnit = .ok unit) :
    ∀ c ∈ unit.toList, c = ' ' := by
  unfold indentUnit at h
  split at h
  · split at h
    · cases h
    · cases h
      intro c hc
      rw [String.toList_ofList] at hc
      exact List.eq_of_mem_replicate hc
  · cases h
    split <;> simp
  · cases h

def stylePrefix (c : Config) : Except Fault (Option String) :=
  if !c.classPrefix.isGiven then .ok none
  else match c.classPrefix with
    | .str s => .ok (some s)
    | _ => .error .kind

/-- A member of the custom settings, or `default` where it is missing. -/
def customMember (c : Config) (key : String) (default : Json) : Except Fault Json :=
  match c.custom with
  | .obj fields => .ok ((Table.get? fields key).getD default)
  | _ => .error .member

end Config

namespace Json

def keyText : Json → Except Fault String
  | str s => .ok s
  | null => .ok "null"
  | bool b => .ok (if b then "true" else "false")
  | int i => .ok (toString i)
  | float x => .ok (NumberFormat.source.write x)
  | _ => .error .kind

def pair (v : Json) : Except Fault (String × Json) := do
  match ← v.elements with
  | [k, x] => return (← k.keyText, x)
  | _ => throw .content

/-- The table that an object or a list of pairs stands for. -/
def table : Json → Except Fault (Table Json)
  | obj fields => .ok fields
  | v => do
    let pairs ← (← v.elements).mapM pair
    return Table.ofEntries pairs

end Json

end ViewWriter
