import ViewWriter.Proofs.Template.Following
import ViewWriter.Proofs.Text.Blocks
import ViewWriter.Proofs.Traversal
import ViewWriter.Template.Render

/-! Parts of a template. What is written from a part stands in what is written from the whole, at the
start of a line if the part is there at the start of a line. -/

namespace ViewWriter.Template

open ViewWriter.Text

/-! Equality of nodes is decided, so that a part can be found in the nodes of a source. -/

mutual

def Node.same : Node → Node → Bool
  | .text s, .text t => s == t
  | .interpolation p, .interpolation q => p == q
  | .conditional c thenBranch elseBranch, .conditional c' thenBranch' elseBranch' =>
    c == c' && sameNodes thenBranch thenBranch' && sameNodes elseBranch elseBranch'
  | .loop source body, .loop source' body' => source == source' && sameNodes body body'
  | .call name args raw, .call name' args' raw' => name == name' && args == args' && raw == raw'
  | _, _ => false

def sameNodes : List Node → List Node → Bool
  | [], [] => true
  | m :: ms, n :: ns => m.same n && sameNodes ms ns
  | _, _ => false

end

mutual

lemma eq_of_same (m n : Node) (h : m.same n = true) : m = n := by
  match m, n with
  | .text s, .text t => simpa [Node.same] using h
  | .interpolation p, .interpolation q => simpa [Node.same] using h
  | .conditional c thenBranch elseBranch, .conditional c' thenBranch' elseBranch' =>
    simp only [Node.same, Bool.and_eq_true, beq_iff_eq] at h
    rw [h.1.1, eq_of_sameNodes thenBranch thenBranch' h.1.2,
      eq_of_sameNodes elseBranch elseBranch' h.2]
  | .loop source body, .loop source' body' =>
    simp only [Node.same, Bool.and_eq_true, beq_iff_eq] at h
    rw [h.1, eq_of_sameNodes body body' h.2]
  | .call name args raw, .call name' args' raw' => simpa [Node.same, and_assoc] using h

lemma eq_of_sameNodes (ms ns : List Node) (h : sameNodes ms ns = true) : ms = ns := by
  match ms, ns with
  | [], [] => rfl
  | m :: ms, n :: ns =>
    rw [sameNodes, Bool.and_eq_true] at h
    rw [eq_of_same m n h.1, eq_of_sameNodes ms ns h.2]

end

mutual

lemma same_self (n : Node) : n.same n = true := by
  match n with
  | .text _ => simp [Node.same]
  | .interpolation _ => simp [Node.same]
  | .conditional _ thenBranch elseBranch =>
    simp [Node.same, sameNodes_self thenBranch, sameNodes_self elseBranch]
  | .loop _ body => simp [Node.same, sameNodes_self body]
  | .call _ _ _ => simp [Node.same]

lemma sameNodes_self (ns : List Node) : sameNodes ns ns = true := by
  match ns with
  | [] => rfl
  | n :: ns => rw [sameNodes, same_self n, sameNodes_self ns]; rfl

end

instance : DecidableEq Node := fun m n =>
  decidable_of_iff (m.same n = true) ⟨eq_of_same m n, fun h => h ▸ same_self m⟩

mutual

/-- Whether a line has ended after a node, where `start` tells it of what stands before. A loop at the
start of a line may write nothing. -/
def leavesLineAt (start : Bool) : Node → Bool
  | .text s => (s.toList.getLast?.map (· == '\n')).getD start
  | .conditional _ thenBranch elseBranch =>
    leaveLineAt start thenBranch && leaveLineAt start elseBranch
  | .loop _ body => start && leaveLineAt true body
  | _ => false

def leaveLineAt (start : Bool) : List Node → Bool
  | [] => start
  | n :: rest => leaveLineAt (leavesLineAt start n) rest

end

/-- Whether a part stands among nodes at the start of a line. -/
def standsAt (part : List Node) (start : Bool) : List Node → Bool
  | [] => false
  | n :: rest => (start && part.isPrefixOf (n :: rest)) || standsAt part (leavesLineAt start n) rest

section Position

variable {helpers : Table Helper} {context : Json} {start : Bool} {passed : List Char}
  {part nodes more : List Node} {text : String}

lemma renderAll_cons_eq_ok {n : Node} {rest : List Node} {text : String} :
    renderAll helpers context (n :: rest) = .ok text ↔ ∃ first others,
      n.render helpers context = .ok first ∧ renderAll helpers context rest = .ok others ∧
      text = first ++ others := by
  rw [renderAll]
  exact combine_eq_ok_iff

lemma renderAll_singleton (n : Node) :
    renderAll helpers context [n] = n.render helpers context := by
  rw [renderAll, renderAll]
  cases n.render helpers context with
  | error e => rfl
  | ok first => exact congrArg Except.ok String.append_empty

lemma renderAll_append_eq_ok : renderAll helpers context (nodes ++ more) = .ok text ↔
    ∃ first others, renderAll helpers context nodes = .ok first ∧
      renderAll helpers context more = .ok others ∧ text = first ++ others := by
  induction nodes generalizing text with
  | nil => simp [renderAll]
  | cons n rest ih =>
    simp only [List.cons_append, renderAll_cons_eq_ok, ih]
    constructor
    · rintro ⟨a, -, ha, ⟨b, c, hb, hc, rfl⟩, rfl⟩
      exact ⟨a ++ b, c, ⟨a, b, ha, hb, rfl⟩, hc, String.append_assoc.symm⟩
    · rintro ⟨-, c, ⟨a, b, ha, hb, rfl⟩, hc, rfl⟩
      exact ⟨a, b ++ c, ha, ⟨b, c, hb, hc, rfl⟩, String.append_assoc⟩

lemma renderItems_cons_eq_ok {index : ℕ} {item : Json} {items : List Json} :
    renderItems helpers context nodes index (item :: items) = .ok text ↔ ∃ first others,
      renderAll helpers (loopContext context item index) nodes = .ok first ∧
      renderItems helpers context nodes (index + 1) items = .ok others ∧ text = first ++ others := by
  rw [renderItems]
  exact combine_eq_ok_iff

lemma atLineStart_text {s : String} (hpassed : start = true → AtLineStart passed)
    (h : leavesLineAt start (.text s) = true) : AtLineStart (passed ++ s.toList) := by
  rw [leavesLineAt] at h
  rcases s.toList.eq_nil_or_concat with hnil | ⟨before, c, hc⟩
  · rw [hnil, List.append_nil]
    rw [hnil] at h
    exact hpassed (by simpa using h)
  · rw [List.concat_eq_append] at hc
    rw [hc] at h ⊢
    obtain rfl : c = '\n' := by simpa using h
    exact .inr ⟨passed ++ before, (List.append_assoc _ _ _).symm⟩

mutual

lemma atLineStart_leaves (n : Node) {context : Json} {start : Bool} {passed : List Char} {s : String}
    (hpassed : start = true → AtLineStart passed) (h : leavesLineAt start n = true)
    (hs : n.render helpers context = .ok s) : AtLineStart (passed ++ s.toList) := by
  match n with
  | .text value =>
    rw [Node.render, Except.ok.injEq] at hs
    subst hs
    exact atLineStart_text hpassed h
  | .conditional condition thenBranch elseBranch =>
    rw [leavesLineAt, Bool.and_eq_true] at h
    rw [Node.render, bind_eq_ok_iff] at hs
    obtain ⟨b, -, hs⟩ := hs
    split_ifs at hs
    · exact atLineStart_leave thenBranch hpassed h.1 hs
    · exact atLineStart_leave elseBranch hpassed h.2 hs
  | .loop source body =>
    rw [leavesLineAt, Bool.and_eq_true] at h
    rw [Node.render, bind_eq_ok_iff] at hs
    obtain ⟨v, -, hs⟩ := hs
    split at hs
    · exact atLineStart_items body (hpassed h.1) h.2 _ hs
    · cases hs
      simpa using hpassed h.1
  | .interpolation path => cases h
  | .call name args raw => cases h
  termination_by (sizeOf n, 0)

lemma atLineStart_leave (nodes : List Node) {context : Json} {start : Bool} {passed : List Char}
    {s : String} (hpassed : start = true → AtLineStart passed) (h : leaveLineAt start nodes = true)
    (hs : renderAll helpers context nodes = .ok s) : AtLineStart (passed ++ s.toList) := by
  match nodes with
  | [] =>
    rw [renderAll, Except.ok.injEq] at hs
    rw [← hs, String.toList_empty, List.append_nil]
    exact hpassed h
  | n :: rest =>
    obtain ⟨first, others, hfirst, hothers, rfl⟩ := renderAll_cons_eq_ok.1 hs
    rw [leaveLineAt] at h
    rw [String.toList_append, ← List.append_assoc]
    exact atLineStart_leave rest (fun hn => atLineStart_leaves n hpassed hn hfirst) h hothers
  termination_by (sizeOf nodes, 0)

lemma atLineStart_items (body : List Node) {context : Json} {passed : List Char} {s : String}
    {index : ℕ} (hpassed : AtLineStart passed) (h : leaveLineAt true body = true) (items : List Json)
    (hs : renderItems helpers context body index items = .ok s) :
    AtLineStart (passed ++ s.toList) := by
  match items with
  | [] =>
    rw [renderItems, Except.ok.injEq] at hs
    rw [← hs, String.toList_empty, List.append_nil]
    exact hpassed
  | item :: items =>
    obtain ⟨first, others, hfirst, hothers, rfl⟩ := renderItems_cons_eq_ok.1 hs
    -- the body leaves a line start behind, which is where the next item begins
    rw [String.toList_append, ← List.append_assoc]
    exact atLineStart_items body (atLineStart_leave body (fun _ => hpassed) h hfirst) h items hothers
  termination_by (sizeOf body, items.length + 1)

end

lemma exists_written (h : part <:+: nodes) (hs : renderAll helpers context nodes = .ok text) :
    ∃ (before : List Char) (written : String) (after : List Char),
      renderAll helpers context part = .ok written ∧
      text.toList = before ++ (written.toList ++ after) := by
  obtain ⟨earlier, later, rfl⟩ := h
  obtain ⟨_, last, hfirst, -, rfl⟩ := renderAll_append_eq_ok.1 hs
  obtain ⟨before, written, -, hwritten, rfl⟩ := renderAll_append_eq_ok.1 hfirst
  exact ⟨before.toList, written, last.toList, hwritten, by simp⟩

lemma exists_writtenAt (hpassed : start = true → AtLineStart passed)
    (h : standsAt part start nodes = true) (hs : renderAll helpers context nodes = .ok text) :
    ∃ (before : List Char) (written : String) (after : List Char),
      renderAll helpers context part = .ok written ∧
      text.toList = before ++ (written.toList ++ after) ∧ AtLineStart (passed ++ before) := by
  induction nodes generalizing start passed text with
  | nil => cases h
  | cons n rest ih =>
    rw [standsAt, Bool.or_eq_true, Bool.and_eq_true] at h
    rcases h with ⟨hstart, hpart⟩ | h
    · obtain ⟨later, hnodes⟩ := List.isPrefixOf_iff_prefix.1 hpart
      rw [← hnodes] at hs
      obtain ⟨written, others, hwritten, -, rfl⟩ := renderAll_append_eq_ok.1 hs
      exact ⟨[], written, others.toList, hwritten, by simp, by simpa using hpassed hstart⟩
    · obtain ⟨first, others, hfirst, hothers, rfl⟩ := renderAll_cons_eq_ok.1 hs
      obtain ⟨before, written, after, hwritten, hothers, hbefore⟩ :=
        ih (fun hn => atLineStart_leaves n hpassed hn hfirst) h hothers
      refine ⟨first.toList ++ before, written, after, hwritten, ?_, ?_⟩
      · simp [hothers]
      · rwa [← List.append_assoc]

lemma exists_writtenLine (h : standsAt part true nodes = true)
    (hs : renderAll helpers context nodes = .ok text) :
    ∃ (before : List Char) (written : String) (after : List Char),
      renderAll helpers context part = .ok written ∧
      text.toList = before ++ (written.toList ++ after) ∧ AtLineStart before :=
  exists_writtenAt (fun _ => .inl rfl) h hs

section Items

variable {body : List Node} {items : List Json} {item : Json}

lemma resolve_item {path : String} (key : String) {fields : Table Json} {v : Json}
    (hpath : segments path = ["item", key]) (h : fields.get? key = some v) (index : ℕ) :
    resolvePath path (loopContext context (.obj fields) index) = .ok v := by
  have hitem : Table.get? (("item", Json.obj fields) :: ("index", Json.ofNat index) ::
      (context.fields?.getD [])) "item" = some (.obj fields) := by
    rw [Table.get?_cons, if_pos rfl]
  refine resolvePath_of_leads ?_
  rw [hpath]
  exact .member hitem (.member h (.here v))

lemma renderItems_map {α : Type} {ofItem : α → Json} {write : α → List Char}
    (h : ∀ x index, renderAll helpers (loopContext context (ofItem x) index) body =
      .ok (String.ofList (write x))) (xs : List α) (index : ℕ) :
    renderItems helpers context body index (xs.map ofItem) =
      .ok (String.ofList (xs.flatMap write)) := by
  induction xs generalizing index with
  | nil => rw [List.map_nil, renderItems]; rfl
  | cons x rest ih =>
    rw [List.map_cons, renderItems_cons_eq_ok]
    exact ⟨_, _, h x index, ih (index + 1), String.toList_inj.1 (by simp)⟩

/-- For every item of a loop at the start of a line, a part that stands at the start of a line in the
body is written at the start of a line. -/
lemma exists_writtenItem {index : ℕ} (hpassed : AtLineStart passed)
    (hbody : leaveLineAt true body = true) (hpart : standsAt part true body = true)
    (hitem : item ∈ items) (hs : renderItems helpers context body index items = .ok text) :
    ∃ (place : ℕ) (before : List Char) (written : String) (after : List Char),
      renderAll helpers (loopContext context item place) part = .ok written ∧
      text.toList = before ++ (written.toList ++ after) ∧ AtLineStart (passed ++ before) := by
  induction items generalizing index passed text with
  | nil => cases hitem
  | cons first items ih =>
    obtain ⟨own, others, hown, hothers, rfl⟩ := renderItems_cons_eq_ok.1 hs
    rcases List.mem_cons.1 hitem with rfl | hitem
    · obtain ⟨before, written, after, hwritten, hown, hbefore⟩ :=
        exists_writtenAt (fun _ => hpassed) hpart hown
      exact ⟨index, before, written, after ++ others.toList, hwritten, by simp [hown], hbefore⟩
    · have hnext := atLineStart_leave body (fun _ => hpassed) hbody hown
      obtain ⟨place, before, written, after, hwritten, hothers, hbefore⟩ := ih hnext hitem hothers
      exact ⟨place, own.toList ++ before, written, after, hwritten, by simp [hothers],
        by rwa [← List.append_assoc]⟩

lemma exists_writtenIn {source : String} (part : List Node)
    (hloop : standsAt [.loop source body] true nodes = true) (hbody : leaveLineAt true body = true)
    (hpart : standsAt part true body = true)
    (hitems : resolvePath source context = .ok (.arr items)) (hitem : item ∈ items)
    (hs : renderAll helpers context nodes = .ok text) :
    ∃ (place : ℕ) (before : List Char) (written : String) (after : List Char),
      renderAll helpers (loopContext context item place) part = .ok written ∧
      text.toList = before ++ (written.toList ++ after) ∧ AtLineStart before := by
  obtain ⟨earlier, loop, later, hwritten, htext, hearlier⟩ := exists_writtenLine hloop hs
  obtain ⟨own, others, hown, hothers, rfl⟩ := renderAll_cons_eq_ok.1 hwritten
  rw [Node.render, hitems] at hown
  obtain ⟨place, before, written, after, hwritten, hown, hbefore⟩ :=
    exists_writtenItem hearlier hbody hpart hitem hown
  exact ⟨place, earlier ++ before, written, after ++ others.toList ++ later, hwritten,
    by simp [htext, hown], hbefore⟩

lemma hasLine_item {source line : String} (part : List Node)
    (hloop : standsAt [.loop source body] true nodes = true) (hbody : leaveLineAt true body = true)
    (hpart : standsAt part true body = true)
    (hitems : resolvePath source context = .ok (.arr items)) (hitem : item ∈ items)
    (hs : renderAll helpers context nodes = .ok text)
    (hline : ∀ place, renderAll helpers (loopContext context item place) part = .ok line)
    (hsolid : IsSolid line.toList) : HasLine (tidy text) line := by
  obtain ⟨place, before, written, after, hwritten, htext, hbefore⟩ :=
    exists_writtenIn part hloop hbody hpart hitems hitem hs
  obtain rfl := Except.ok.inj ((hline place).symm.trans hwritten)
  exact hasLine_tidy hbefore hsolid after htext

end Items

end Position

end ViewWriter.Template

/-! Rendering by structural recursion on a number of steps. What it writes is what the nodes are
rendered as, so that the text of a given context can be computed. -/

namespace ViewWriter.Template

/-- The texts for items one after the other, counted from `index`. -/
def writtenItems (write : Json → ℕ → Option String) (index : ℕ) : List Json → Option String
  | [] => some ""
  | item :: rest =>
    (write item index).bind fun first =>
      (writtenItems write (index + 1) rest).map fun others => first ++ others

/-- The text of a node, where `write` gives the texts of the nodes in it. -/
def writtenBy (write : Json → List Node → Option String) (helpers : Table Helper) (context : Json) :
    Node → Option String
  | .text s => some s
  | .interpolation path => ((resolvePath path context).map stringify).toOption
  | .conditional condition thenBranch elseBranch =>
    (condition.eval context).toOption.bind fun holds =>
      if holds then write context thenBranch else write context elseBranch
  | .loop source body =>
    (resolvePath source context).toOption.bind fun v =>
      match v with
      | .arr items => writtenItems (fun item i => write (loopContext context item i) body) 0 items
      | _ => some ""
  | .call name args raw =>
    match helpers.lookup name with
    | none => some raw
    | some helper =>
      ((args.mapM fun a => resolveOperand a context).map (callText helper)).toOption

def writtenWithin (helpers : Table Helper) : ℕ → Json → List Node → Option String
  | 0, _, _ => none
  | _ + 1, _, [] => some ""
  | n + 1, context, node :: rest =>
    (writtenBy (writtenWithin helpers n) helpers context node).bind fun first =>
      (writtenWithin helpers n context rest).map fun others => first ++ others

variable {helpers : Table Helper} {context : Json} {body nodes : List Node} {text : String}

lemma renderItems_of_written {write : Json → ℕ → Option String} {index : ℕ} {items : List Json}
    (hwrite : ∀ item i s, write item i = some s →
      renderAll helpers (loopContext context item i) body = .ok s)
    (h : writtenItems write index items = some text) :
    renderItems helpers context body index items = .ok text := by
  induction items generalizing index text with
  | nil =>
    cases h
    rw [renderItems]
  | cons item rest ih =>
    simp only [writtenItems, Option.bind_eq_some_iff, Option.map_eq_some_iff] at h
    obtain ⟨first, hfirst, others, hothers, rfl⟩ := h
    rw [renderItems, hwrite item index first hfirst, ih hothers]
    rfl

lemma render_of_written {write : Json → List Node → Option String} {node : Node}
    (hwrite : ∀ context nodes s, write context nodes = some s →
      renderAll helpers context nodes = .ok s)
    (h : writtenBy write helpers context node = some text) :
    node.render helpers context = .ok text := by
  cases node with
  | text s =>
    cases h
    rw [Node.render]
  | interpolation path =>
    rw [Node.render]
    exact toOption_eq_some_iff.1 h
  | conditional condition thenBranch elseBranch =>
    simp only [writtenBy, Option.bind_eq_some_iff, toOption_eq_some_iff] at h
    obtain ⟨holds, hholds, h⟩ := h
    rw [Node.render, hholds]
    cases holds with
    | true => exact hwrite _ _ _ h
    | false => exact hwrite _ _ _ h
  | loop source body =>
    simp only [writtenBy, Option.bind_eq_some_iff, toOption_eq_some_iff] at h
    obtain ⟨v, hv, h⟩ := h
    rw [Node.render, hv]
    cases v with
    | arr items => exact renderItems_of_written (fun _ _ _ hs => hwrite _ _ _ hs) h
    | _ => exact congrArg Except.ok (Option.some.inj h)
  | call name args raw =>
    rw [writtenBy] at h
    split at h
    · rename_i hname
      simp only [Node.render, hname]
      exact congrArg Except.ok (Option.some.inj h)
    · rename_i helper hname
      simp only [Node.render, hname]
      exact toOption_eq_some_iff.1 h

lemma renderAll_of_written {n : ℕ} (h : writtenWithin helpers n context nodes = some text) :
    renderAll helpers context nodes = .ok text := by
  -- on the steps, as the nodes in a node are rendered in contexts of their own
  induction n generalizing context nodes text with
  | zero => cases h
  | succ n ih =>
    cases nodes with
    | nil =>
      cases h
      rw [renderAll]
    | cons node rest =>
      simp only [writtenWithin, Option.bind_eq_some_iff, Option.map_eq_some_iff] at h
      obtain ⟨first, hfirst, others, hothers, rfl⟩ := h
      have hnode := render_of_written (fun _ _ _ hs => ih hs) hfirst
      exact renderAll_cons_eq_ok.2 ⟨first, others, hnode, ih hothers, rfl⟩

end ViewWriter.Template
