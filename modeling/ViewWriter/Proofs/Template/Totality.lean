import Mathlib.Tactic.Lemma
import ViewWriter.Proofs.Template.Compiling
import ViewWriter.Proofs.Template.Following
import ViewWriter.Template.Engine
import ViewWriter.Template.Source

/-! Rendering ends with a text unless something it looks up is refused, whatever the helpers do; a
path that leads nowhere is null there. -/

namespace ViewWriter.Template

open ViewWriter.Text ViewWriter.Template.Source

def Condition.operands : Condition → List String
  | holds operand => [operand]
  | equal left right => [left, right]
  | differ left right => [left, right]

/-- What rendering nodes over a context looks up, and over which context. -/
inductive Asks (helpers : Table Helper) : Json → List Node → Json → Query → Prop
  | later {context node rest c q} :
      Asks helpers context rest c q → Asks helpers context (node :: rest) c q
  | path {context path rest} :
      Asks helpers context (.interpolation path :: rest) context (.path path)
  | operand {context condition thenBranch elseBranch rest operand} :
      operand ∈ condition.operands →
      Asks helpers context (.conditional condition thenBranch elseBranch :: rest) context
        (.operand operand)
  | thenBranch {context condition thenBranch elseBranch rest c q} :
      condition.eval context = .ok true → Asks helpers context thenBranch c q →
      Asks helpers context (.conditional condition thenBranch elseBranch :: rest) c q
  | elseBranch {context condition thenBranch elseBranch rest c q} :
      condition.eval context = .ok false → Asks helpers context elseBranch c q →
      Asks helpers context (.conditional condition thenBranch elseBranch :: rest) c q
  | source {context source body rest} :
      Asks helpers context (.loop source body :: rest) context (.path source)
  | body {context source body rest items index item c q} :
      Leads context (segments source) (.arr items) → items[index]? = some item →
      Asks helpers (loopContext context item index) body c q →
      Asks helpers context (.loop source body :: rest) c q
  | argument {context name args raw rest arg} :
      helpers.has name → arg ∈ args →
      Asks helpers context (.call name args raw :: rest) context (.operand arg)

/-- Nothing that rendering looks up is refused. -/
def Answered (helpers : Table Helper) (context : Json) (nodes : List Node) : Prop :=
  ∀ c q, Asks helpers context nodes c q → ¬ q.Refused c

section Rendering

variable {helpers : Table Helper} {context : Json}

lemma exists_eval {condition : Condition}
    (h : ∀ operand ∈ condition.operands, ¬ (Query.operand operand).Refused context) :
    ∃ b, condition.eval context = .ok b := by
  cases condition with
  | holds operand =>
    obtain ⟨v, hv⟩ := exists_resolveOperand (h operand (by simp [Condition.operands]))
    exact ⟨v.isGiven, by rw [Condition.eval, hv]; rfl⟩
  | equal left right =>
    obtain ⟨l, hl⟩ := exists_resolveOperand (h left (by simp [Condition.operands]))
    obtain ⟨r, hr⟩ := exists_resolveOperand (h right (by simp [Condition.operands]))
    exact ⟨l.eq r, by rw [Condition.eval, hl, hr]; rfl⟩
  | differ left right =>
    obtain ⟨l, hl⟩ := exists_resolveOperand (h left (by simp [Condition.operands]))
    obtain ⟨r, hr⟩ := exists_resolveOperand (h right (by simp [Condition.operands]))
    exact ⟨!l.eq r, by rw [Condition.eval, hl, hr]; rfl⟩

lemma exists_resolveOperands {args : List String}
    (h : ∀ arg ∈ args, ¬ (Query.operand arg).Refused context) :
    ∃ vs, args.mapM (fun a => resolveOperand a context) = .ok vs := by
  induction args with
  | nil => exact ⟨[], rfl⟩
  | cons arg rest ih =>
    obtain ⟨v, hv⟩ := exists_resolveOperand (h arg List.mem_cons_self)
    obtain ⟨vs, hvs⟩ := ih fun a ha => h a (List.mem_cons_of_mem arg ha)
    exact ⟨v :: vs, by rw [List.mapM_cons, hv, hvs]; rfl⟩

lemma exists_renderItems {body : List Node} {items : List Json} {index : ℕ}
    (h : ∀ i item, items[i]? = some item →
      ∃ text, renderAll helpers (loopContext context item (index + i)) body = .ok text) :
    ∃ text, renderItems helpers context body index items = .ok text := by
  induction items generalizing index with
  | nil => exact ⟨"", by rw [renderItems]⟩
  | cons item rest ih =>
    obtain ⟨first, hfirst⟩ := h 0 item rfl
    obtain ⟨others, hothers⟩ :
        ∃ text, renderItems helpers context body (index + 1) rest = .ok text := by
      refine ih fun i item hitem => ?_
      rw [Nat.add_right_comm]
      exact h (i + 1) item hitem
    rw [Nat.add_zero] at hfirst
    exact ⟨first ++ others, by rw [renderItems, hfirst, hothers]; rfl⟩

lemma exists_renderCall {name raw : String} {args : List String}
    (h : helpers.has name → ∀ arg ∈ args, ¬ (Query.operand arg).Refused context) :
    ∃ text, (Node.call name args raw).render helpers context = .ok text := by
  rw [Node.render]
  split
  · exact ⟨raw, rfl⟩
  · rename_i helper hhelper
    have hhas : helpers.has name = true := by rw [Table.has, Table.get?, hhelper]; rfl
    obtain ⟨vs, hvs⟩ := exists_resolveOperands (h hhas)
    exact ⟨callText helper vs, by rw [hvs]; rfl⟩

lemma exists_renderAll (nodes : List Node) {context : Json} (h : Answered helpers context nodes) :
    ∃ text, renderAll helpers context nodes = .ok text := by
  match nodes with
  | [] => exact ⟨"", by rw [renderAll]⟩
  | node :: rest =>
    obtain ⟨others, hothers⟩ := exists_renderAll rest fun c q hq => h c q (.later hq)
    suffices hnode : ∃ first, node.render helpers context = .ok first by
      obtain ⟨first, hfirst⟩ := hnode
      exact ⟨first ++ others, by rw [renderAll, hfirst, hothers]; rfl⟩
    cases node with
    | text s => exact ⟨s, by rw [Node.render]⟩
    | interpolation path =>
      obtain ⟨v, hv⟩ := exists_resolvePath (h context (.path path) .path)
      exact ⟨stringify v, by rw [Node.render, hv]; rfl⟩
    | conditional condition thenBranch elseBranch =>
      obtain ⟨b, hb⟩ := exists_eval fun operand ho => h context _ (.operand ho)
      cases b with
      | true =>
        obtain ⟨text, htext⟩ := exists_renderAll thenBranch fun c q hq => h c q (.thenBranch hb hq)
        exact ⟨text, by rw [Node.render, hb]; exact htext⟩
      | false =>
        obtain ⟨text, htext⟩ := exists_renderAll elseBranch fun c q hq => h c q (.elseBranch hb hq)
        exact ⟨text, by rw [Node.render, hb]; exact htext⟩
    | loop source body =>
      obtain ⟨v, hv⟩ := exists_resolvePath (h context (.path source) .source)
      rw [Node.render, hv]
      cases v with
      | arr items =>
        refine exists_renderItems fun i item hitem => ?_
        rw [Nat.zero_add]
        exact exists_renderAll body fun c q hq =>
          h c q (.body (leads_of_resolvePath hv) hitem hq)
      | _ => exact ⟨"", rfl⟩
    | call name args raw =>
      exact exists_renderCall fun hhas arg harg => h context _ (.argument hhas harg)
  termination_by sizeOf nodes

lemma renderSource_eq (e : Engine) (generator : Option String) (source : String)
    (context : Json) :
    e.renderSource generator source context = (renderAll (e.store.helpersFor generator)
      (context.orElse (.obj [])) (compile source)).mapError .fault := by
  rw [Engine.renderSource]
  cases renderAll _ _ (compile source) <;> rfl

lemma orElse_obj (context : Table Json) : (Json.obj context).orElse (.obj []) = .obj context := by
  cases context <;> rfl

lemma renderSource_obj (e : Engine) (generator : Option String) (source : String)
    (context : Table Json) :
    e.renderSource generator source (.obj context) =
      (renderAll (e.store.helpersFor generator) (.obj context) (compile source)).mapError
        .fault := by
  rw [renderSource_eq, orElse_obj]

lemma render_stored {e : Engine} {g kind source : String} (hg : e.generator = some g)
    (h : e.store.find? g kind = some source) (context : Table Json) :
    e.render kind (.obj context) =
      (renderAll (e.store.helpersFor (some g)) (.obj context) (compile source)).mapError
        .fault := by
  simp only [Engine.render, Engine.splitName, hg, Store.template, h]
  exact renderSource_obj e (some g) source context

end Rendering

section Missing

variable {context : Table Json}

end Missing

section Unread

end Unread

end ViewWriter.Template

/-! Templates that no context can stop. They look up no place in a list, and the whole numbers in
them are read. -/

namespace ViewWriter.Template

open ViewWriter.Text ViewWriter.Template.Source

def isPlaceless (path : String) : Bool :=
  (segments path).all fun segment => !(segment != "" && segment.toList.all isDigit)

def isReadOperand (operand : String) : Bool :=
  let s := trimmed operand
  if isNumeral s.toList then s.toList.contains '.' || (Number.integer? s).isSome
  else isPlaceless s

mutual

def isUnfailing : Node → Bool
  | .text _ => true
  | .interpolation path => isPlaceless path
  | .conditional condition thenBranch elseBranch =>
    condition.operands.all isReadOperand && areUnfailing thenBranch && areUnfailing elseBranch
  | .loop source body => isPlaceless source && areUnfailing body
  | .call _ args _ => args.all isReadOperand

def areUnfailing : List Node → Bool
  | [] => true
  | n :: rest => isUnfailing n && areUnfailing rest

end

variable {context : Json} {path operand : String} {helpers : Table Helper}

lemma not_stuck (h : isPlaceless path = true) : ¬ Stuck context (segments path) := by
  rintro ⟨before, segment, rest, items, hpath, -, hplace, -⟩
  rw [isPlaceless, List.all_eq_true] at h
  have hsegment := h segment (by rw [hpath]; simp)
  rw [isPlace_iff.2 hplace] at hsegment
  cases hsegment

lemma not_refused (h : isReadOperand operand = true) : ¬ (Query.operand operand).Refused context := by
  rw [isReadOperand] at h
  rintro (⟨hnumeral, hpoint, hread⟩ | ⟨hlookup, hstuck⟩)
  · simp [hnumeral, hpoint, hread] at h
  · simp only [hlookup.no_numeral, Bool.false_eq_true, if_false] at h
    exact not_stuck h hstuck

lemma answered_of_unfailing {nodes : List Node} (h : areUnfailing nodes = true) :
    Answered helpers context nodes := by
  intro c q hasks
  induction hasks with
  | later _ ih =>
    rw [areUnfailing, Bool.and_eq_true] at h
    exact ih h.2
  | path =>
    rw [areUnfailing, Bool.and_eq_true, isUnfailing] at h
    exact not_stuck h.1
  | operand hoperand =>
    simp only [areUnfailing, isUnfailing, Bool.and_eq_true, List.all_eq_true] at h
    exact not_refused (h.1.1.1 _ hoperand)
  | thenBranch _ _ ih =>
    simp only [areUnfailing, isUnfailing, Bool.and_eq_true] at h
    exact ih h.1.1.2
  | elseBranch _ _ ih =>
    simp only [areUnfailing, isUnfailing, Bool.and_eq_true] at h
    exact ih h.1.2
  | source =>
    simp only [areUnfailing, isUnfailing, Bool.and_eq_true] at h
    exact not_stuck h.1.1
  | body _ _ _ ih =>
    simp only [areUnfailing, isUnfailing, Bool.and_eq_true] at h
    exact ih h.1.2
  | argument _ harg =>
    simp only [areUnfailing, isUnfailing, Bool.and_eq_true, List.all_eq_true] at h
    exact not_refused (h.1 _ harg)

/-! Sources of whole lines. -/

def sourceChars (lines : List String) : List Char := lines.flatMap fun l => l.toList ++ ['\n']

lemma toList_ofLines (lines : List String) : (ofLines lines).toList = sourceChars lines := by
  rw [ofLines, toList_concat, List.flatMap_map, sourceChars]
  exact List.flatMap_congr fun l _ => String.toList_append

/-- What is computed of the nodes of a source holds of them. -/
lemma check_compile {p : List Node → Bool} {lines : List String}
    (h : (nodesWithin (sourceChars lines)).any p = true) : p (compile (ofLines lines)) = true := by
  obtain ⟨nodes, hnodes, hp⟩ := Option.any_eq_true _ _ |>.1 h
  rw [← toList_ofLines] at hnodes
  rwa [compile_eq hnodes]

end ViewWriter.Template
