import ViewWriter.Template.Operand
import ViewWriter.Template.Token

/-!
Templates as forests. A tag without its partner stays as text.
-/

namespace ViewWriter.Template

inductive Node where
  | text (text : String)
  | interpolation (path : String)
  | conditional (condition : Condition) (thenBranch elseBranch : List Node)
  | loop (source : String) (body : List Node)
  | call (name : String) (args : List String) (raw : String)

/-- The tags that end a stretch of nodes. -/
structure Closers where
  ifElse : Bool := false
  ifClose : Bool := false
  eachClose : Bool := false

namespace Closers

def closes (c : Closers) : Token → Bool
  | .tag .ifElse _ => c.ifElse
  | .tag .ifClose _ => c.ifClose
  | .tag .eachClose _ => c.eachClose
  | _ => false

end Closers

/-- Nodes, and the tokens after them, of which there are at most `n`. -/
structure Stretch (n : Nat) where
  nodes : List Node
  rest : List Token
  bound : rest.length ≤ n

namespace Stretch

def before (first : List Node) {m n : Nat} (h : m ≤ n) (s : Stretch m) : Stretch n :=
  ⟨first ++ s.nodes, s.rest, Nat.le_trans s.bound h⟩

end Stretch

/-- The nodes up to the first token that closes. -/
def stretch (closers : Closers) (ts : List Token) : Stretch ts.length :=
  match ts with
  | [] => ⟨[], [], Nat.le_refl _⟩
  | t :: rest =>
    if closers.closes t then ⟨[], t :: rest, Nat.le_refl _⟩
    else match t with
      | .text value _ => (stretch closers rest).before [.text value] (by simp)
      | .tag (.path path) _ => (stretch closers rest).before [.interpolation path] (by simp)
      | .tag (.helper name args) raw =>
        (stretch closers rest).before [.call name args raw] (by simp)
      | .tag (.ifOpen condition) raw =>
        let ⟨thenNodes, thenRest, _⟩ :=
          stretch { closers with ifElse := true, ifClose := true } rest
        match thenRest with
        | .tag .ifClose _ :: after =>
          (stretch closers after).before [.conditional (.parse condition) thenNodes []]
            (by simp only [List.length_cons] at *; omega)
        | .tag .ifElse elseRaw :: later =>
          let ⟨elseNodes, elseRest, _⟩ := stretch { closers with ifClose := true } later
          match elseRest with
          | .tag .ifClose _ :: after =>
            (stretch closers after).before [.conditional (.parse condition) thenNodes elseNodes]
              (by simp only [List.length_cons] at *; omega)
          | other =>
            (stretch closers other).before (.text raw :: thenNodes ++ .text elseRaw :: elseNodes)
              (by simp only [List.length_cons] at *; omega)
        | other =>
          (stretch closers other).before (.text raw :: thenNodes)
            (by simp only [List.length_cons] at *; omega)
      | .tag (.eachOpen source) raw =>
        let ⟨body, bodyRest, _⟩ := stretch { closers with eachClose := true } rest
        match bodyRest with
        | .tag .eachClose _ :: after =>
          (stretch closers after).before [.loop source body]
            (by simp only [List.length_cons] at *; omega)
        | other =>
          (stretch closers other).before (.text raw :: body)
            (by simp only [List.length_cons] at *; omega)
      | .tag _ raw => (stretch closers rest).before [.text raw] (by simp)
  termination_by ts.length
  decreasing_by all_goals simp only [List.length_cons] at *; omega

def parse (ts : List Token) : List Node := (stretch {} ts).nodes

def compile (source : String) : List Node := parse (tokenize source)

end ViewWriter.Template
