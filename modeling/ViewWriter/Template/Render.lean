import ViewWriter.Template.Helper
import ViewWriter.Template.Node
import ViewWriter.Template.Scope

/-!
Writing a template over a context. What is missing is written as nothing, a helper that is not
known stays as written, and one that fails is written as nothing.
-/

namespace ViewWriter.Template

/-- The context inside a loop. -/
def loopContext (context item : Json) (index : Nat) : Json :=
  .obj (("item", item) :: ("index", .ofNat index) :: (context.fields?.getD []))

def callText (helper : Helper) (args : List Json) : String :=
  match helper args with
  | .ok v => stringify v
  | .error _ => ""

mutual

def Node.render (helpers : List (String × Helper)) (context : Json) : Node → Except Fault String
  | .text s => .ok s
  | .interpolation path => (resolvePath path context).map stringify
  | .conditional condition thenBranch elseBranch => do
    if ← condition.eval context then renderAll helpers context thenBranch
    else renderAll helpers context elseBranch
  | .loop source body => do
    match ← resolvePath source context with
    | .arr items => renderItems helpers context body 0 items
    | _ => return ""
  | .call name args raw =>
    match helpers.lookup name with
    | none => .ok raw
    | some helper => (args.mapM fun a => resolveOperand a context).map (callText helper)
  termination_by n => (sizeOf n, 0)

def renderAll (helpers : List (String × Helper)) (context : Json) : List Node → Except Fault String
  | [] => .ok ""
  | n :: rest => do
    let first ← n.render helpers context
    let others ← renderAll helpers context rest
    return first ++ others
  termination_by ns => (sizeOf ns, 0)

/-- The body once for each item, counted from `index`. -/
def renderItems (helpers : List (String × Helper)) (context : Json) (body : List Node)
    (index : Nat) : List Json → Except Fault String
  | [] => .ok ""
  | item :: rest => do
    let first ← renderAll helpers (loopContext context item index) body
    let others ← renderItems helpers context body (index + 1) rest
    return first ++ others
  termination_by items => (sizeOf body, items.length + 1)

end

end ViewWriter.Template
