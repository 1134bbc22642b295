import ViewWriter.Proofs.Template.Parts
import ViewWriter.Script.Reference

/-! What a template writes, in spans: its own texts, and the texts that are filled in between them. A
mark that only some of its nodes have is among its own texts if and only if these nodes write it. -/

namespace ViewWriter.Template

open ViewWriter.Text

/-- A stretch of what a template writes: a text of its own, or one that is filled in. -/
inductive Span where
  | own (text : String)
  | filled (text : String)
deriving DecidableEq

def Span.text : Span → String
  | own s => s
  | filled s => s

def spansText (spans : List Span) : String := concat (spans.map Span.text)

mutual

def Node.spans (helpers : Table Helper) (context : Json) : Node → Except Fault (List Span)
  | .text s => .ok [.own s]
  | .interpolation path => (resolvePath path context).map fun v => [.filled (stringify v)]
  | .conditional condition thenBranch elseBranch => do
    if ← condition.eval context then spansAll helpers context thenBranch
    else spansAll helpers context elseBranch
  | .loop source body => do
    match ← resolvePath source context with
    | .arr items => spansItems helpers context body 0 items
    | _ => return []
  | .call name args raw =>
    match helpers.lookup name with
    | none => .ok [.own raw]
    | some helper =>
      (args.mapM fun a => resolveOperand a context).map fun vs => [.filled (callText helper vs)]
  termination_by n => (sizeOf n, 0)

def spansAll (helpers : Table Helper) (context : Json) : List Node → Except Fault (List Span)
  | [] => .ok []
  | n :: rest => do
    let first ← n.spans helpers context
    let others ← spansAll helpers context rest
    return first ++ others
  termination_by ns => (sizeOf ns, 0)

def spansItems (helpers : Table Helper) (context : Json) (body : List Node) (index : ℕ) :
    List Json → Except Fault (List Span)
  | [] => .ok []
  | item :: rest => do
    let first ← spansAll helpers (loopContext context item index) body
    let others ← spansItems helpers context body (index + 1) rest
    return first ++ others
  termination_by items => (sizeOf body, items.length + 1)

end

section Texts

variable {helpers : Table Helper}

lemma spansText_append (a b : List Span) : spansText (a ++ b) = spansText a ++ spansText b := by
  refine String.toList_inj.1 ?_
  simp [spansText, toList_concat]

lemma spansText_singleton (s : Span) : spansText [s] = s.text := by
  refine String.toList_inj.1 ?_
  simp [spansText, toList_concat]

lemma map_spansText_bind {x y : Except Fault (List Span)} :
    (do
      let first ← x.map spansText
      let others ← y.map spansText
      return first ++ others) =
    (do
      let first ← x
      let others ← y
      return first ++ others : Except Fault (List Span)).map spansText := by
  cases x with
  | error e => rfl
  | ok a =>
    cases y with
    | error e => rfl
    | ok b => exact congrArg Except.ok (spansText_append a b).symm

mutual

lemma render_eq_spans (n : Node) (context : Json) :
    n.render helpers context = (n.spans helpers context).map spansText := by
  match n with
  | .text s => rw [Node.render, Node.spans, Except.map, spansText_singleton]; rfl
  | .interpolation path =>
    rw [Node.render, Node.spans]
    cases resolvePath path context with
    | error e => rfl
    | ok v => exact congrArg Except.ok (spansText_singleton (.filled (stringify v))).symm
  | .conditional condition thenBranch elseBranch =>
    rw [Node.render, Node.spans]
    cases condition.eval context with
    | error e => rfl
    | ok b =>
      cases b with
      | true => exact renderAll_eq_spans thenBranch context
      | false => exact renderAll_eq_spans elseBranch context
  | .loop source body =>
    rw [Node.render, Node.spans]
    cases resolvePath source context with
    | error e => rfl
    | ok v =>
      cases v with
      | arr items => exact renderItems_eq_spans body context 0 items
      | _ => rfl
  | .call name args raw =>
    rw [Node.render, Node.spans]
    cases helpers.lookup name with
    | none => exact congrArg Except.ok (spansText_singleton (.own raw)).symm
    | some helper =>
      dsimp only
      cases args.mapM fun a => resolveOperand a context with
      | error e => rfl
      | ok vs => exact congrArg Except.ok (spansText_singleton (.filled (callText helper vs))).symm
  termination_by (sizeOf n, 0)

lemma renderAll_eq_spans (nodes : List Node) (context : Json) :
    renderAll helpers context nodes = (spansAll helpers context nodes).map spansText := by
  match nodes with
  | [] => rw [renderAll, spansAll]; rfl
  | n :: rest =>
    rw [renderAll, spansAll, render_eq_spans n context, renderAll_eq_spans rest context]
    exact map_spansText_bind
  termination_by (sizeOf nodes, 0)

lemma renderItems_eq_spans (body : List Node) (context : Json) (index : ℕ) (items : List Json) :
    renderItems helpers context body index items =
      (spansItems helpers context body index items).map spansText := by
  match items with
  | [] => rw [renderItems, spansItems]; rfl
  | item :: rest =>
    rw [renderItems, spansItems, renderAll_eq_spans body, renderItems_eq_spans body context]
    exact map_spansText_bind
  termination_by (sizeOf body, items.length + 1)

end

end Texts

/-- The mark stands in one of the template's own texts. -/
def HasOwn (mark : String) (spans : List Span) : Prop :=
  ∃ s, .own s ∈ spans ∧ hasPart mark.toList s.toList = true

mutual

/-- Whether a node has a text of its own with the mark. -/
def Node.mentions (mark : String) : Node → Bool
  | .text s => hasPart mark.toList s.toList
  | .interpolation _ => false
  | .conditional _ thenBranch elseBranch =>
    mentionAny mark thenBranch || mentionAny mark elseBranch
  | .loop _ body => mentionAny mark body
  | .call _ _ raw => hasPart mark.toList raw.toList

def mentionAny (mark : String) : List Node → Bool
  | [] => false
  | n :: rest => n.mentions mark || mentionAny mark rest

end

mutual

/-- A node writes a text of its own with the mark in a context. -/
def Node.Writes (helpers : Table Helper) (mark : String) (context : Json) : Node → Prop
  | .text s => hasPart mark.toList s.toList = true
  | .interpolation _ => False
  | .conditional condition thenBranch elseBranch =>
    condition.eval context = .ok true ∧ WritesAny helpers mark context thenBranch ∨
      condition.eval context = .ok false ∧ WritesAny helpers mark context elseBranch
  | .loop source body =>
    ∃ items, resolvePath source context = .ok (.arr items) ∧
      ∃ (i : ℕ) (item : Json), items[i]? = some item ∧
        WritesAny helpers mark (loopContext context item i) body
  | .call name _ raw => helpers.lookup name = none ∧ hasPart mark.toList raw.toList = true

def WritesAny (helpers : Table Helper) (mark : String) (context : Json) : List Node → Prop
  | [] => False
  | n :: rest => n.Writes helpers mark context ∨ WritesAny helpers mark context rest

end

section Marks

variable {helpers : Table Helper} {mark : String} {context : Json} {spans : List Span}

lemma hasOwn_nil : ¬ HasOwn mark [] := fun ⟨_, h, _⟩ => by cases h

lemma hasOwn_append {a b : List Span} : HasOwn mark (a ++ b) ↔ HasOwn mark a ∨ HasOwn mark b := by
  simp only [HasOwn, List.mem_append, or_and_right, exists_or]

lemma hasOwn_own {s : String} : HasOwn mark [.own s] ↔ hasPart mark.toList s.toList = true := by
  simp [HasOwn]

lemma not_hasOwn_filled {s : String} : ¬ HasOwn mark [.filled s] := by
  simp [HasOwn]

lemma spansAll_cons_eq_ok {n : Node} {rest : List Node} :
    spansAll helpers context (n :: rest) = .ok spans ↔ ∃ first others,
      n.spans helpers context = .ok first ∧ spansAll helpers context rest = .ok others ∧
      spans = first ++ others := by
  rw [spansAll]
  exact combine_eq_ok_iff

lemma spansItems_cons_eq_ok {body : List Node} {index : ℕ} {item : Json} {rest : List Json} :
    spansItems helpers context body index (item :: rest) = .ok spans ↔ ∃ first others,
      spansAll helpers (loopContext context item index) body = .ok first ∧
      spansItems helpers context body (index + 1) rest = .ok others ∧ spans = first ++ others := by
  rw [spansItems]
  exact combine_eq_ok_iff

mutual

lemma hasOwn_spans (n : Node) {context : Json} {spans : List Span}
    (h : n.spans helpers context = .ok spans) :
    HasOwn mark spans ↔ n.Writes helpers mark context := by
  match n with
  | .text s =>
    rw [Node.spans, Except.ok.injEq] at h
    rw [← h, hasOwn_own, Node.Writes]
  | .interpolation path =>
    rw [Node.spans, map_eq_ok_iff] at h
    obtain ⟨v, -, rfl⟩ := h
    simp [not_hasOwn_filled, Node.Writes]
  | .conditional condition thenBranch elseBranch =>
    rw [Node.spans, bind_eq_ok_iff] at h
    obtain ⟨holds, hholds, h⟩ := h
    rw [Node.Writes, hholds]
    cases holds with
    | true => simpa using hasOwn_spansAll thenBranch h
    | false => simpa using hasOwn_spansAll elseBranch h
  | .loop source body =>
    rw [Node.spans, bind_eq_ok_iff] at h
    obtain ⟨v, hv, h⟩ := h
    rw [Node.Writes, hv]
    cases v with
    | arr items => simpa using hasOwn_spansItems body items h
    | _ =>
      cases h
      simp [hasOwn_nil]
  | .call name args raw =>
    rw [Node.spans] at h
    rw [Node.Writes]
    cases hname : helpers.lookup name with
    | none =>
      rw [hname, Except.ok.injEq] at h
      simp [← h, hasOwn_own]
    | some helper =>
      rw [hname] at h
      obtain ⟨vs, -, rfl⟩ := map_eq_ok_iff.1 h
      simp [not_hasOwn_filled]
  termination_by (sizeOf n, 0)

/-- A mark is among the template's own texts if and only if a node writes it. -/
lemma hasOwn_spansAll (nodes : List Node) {context : Json} {spans : List Span}
    (h : spansAll helpers context nodes = .ok spans) :
    HasOwn mark spans ↔ WritesAny helpers mark context nodes := by
  match nodes with
  | [] =>
    rw [spansAll, Except.ok.injEq] at h
    simp [← h, hasOwn_nil, WritesAny]
  | n :: rest =>
    obtain ⟨first, others, hfirst, hothers, rfl⟩ := spansAll_cons_eq_ok.1 h
    rw [hasOwn_append, WritesAny, hasOwn_spans n hfirst, hasOwn_spansAll rest hothers]
  termination_by (sizeOf nodes, 0)

lemma hasOwn_spansItems (body : List Node) {context : Json} {spans : List Span} {index : ℕ}
    (items : List Json) (h : spansItems helpers context body index items = .ok spans) :
    HasOwn mark spans ↔ ∃ (i : ℕ) (item : Json), items[i]? = some item ∧
      WritesAny helpers mark (loopContext context item (index + i)) body := by
  match items with
  | [] =>
    rw [spansItems, Except.ok.injEq] at h
    simp [← h, hasOwn_nil]
  | item :: rest =>
    obtain ⟨first, others, hfirst, hothers, rfl⟩ := spansItems_cons_eq_ok.1 h
    rw [hasOwn_append, hasOwn_spansAll body hfirst, hasOwn_spansItems body rest hothers]
    -- the first item is at the place zero, and the others are one place further on
    constructor
    · rintro (hitem | ⟨i, other, hother, hwrites⟩)
      · exact ⟨0, item, rfl, hitem⟩
      · exact ⟨i + 1, other, hother, by rwa [← Nat.add_assoc, Nat.add_right_comm]⟩
    · rintro ⟨i, other, hother, hwrites⟩
      cases i with
      | zero =>
        obtain rfl := Option.some.inj hother
        exact .inl hwrites
      | succ i => exact .inr ⟨i, other, hother, by rwa [Nat.add_right_comm, Nat.add_assoc]⟩
  termination_by (sizeOf body, items.length + 1)

end

mutual

lemma not_writes (n : Node) {context : Json} (h : n.mentions mark = false) :
    ¬ n.Writes helpers mark context := by
  match n with
  | .text s => simpa [Node.Writes, Node.mentions] using h
  | .interpolation path => simp [Node.Writes]
  | .conditional condition thenBranch elseBranch =>
    rw [Node.mentions, Bool.or_eq_false_iff] at h
    rw [Node.Writes]
    rintro (⟨-, hwrites⟩ | ⟨-, hwrites⟩)
    · exact not_writesAny thenBranch h.1 hwrites
    · exact not_writesAny elseBranch h.2 hwrites
  | .loop source body =>
    rw [Node.Writes]
    rintro ⟨items, -, i, item, -, hwrites⟩
    exact not_writesAny body h hwrites
  | .call name args raw =>
    rw [Node.Writes]
    rintro ⟨-, hraw⟩
    exact Bool.false_ne_true (h.symm.trans hraw)
  termination_by (sizeOf n, 0)

lemma not_writesAny (nodes : List Node) {context : Json} (h : mentionAny mark nodes = false) :
    ¬ WritesAny helpers mark context nodes := by
  match nodes with
  | [] => simp [WritesAny]
  | n :: rest =>
    rw [mentionAny, Bool.or_eq_false_iff] at h
    rw [WritesAny, not_or]
    exact ⟨not_writes n h.1, not_writesAny rest h.2⟩
  termination_by (sizeOf nodes, 0)

end

lemma not_hasOwn {nodes : List Node} (hspans : spansAll helpers context nodes = .ok spans)
    (h : mentionAny mark nodes = false) : ¬ HasOwn mark spans := by
  rw [hasOwn_spansAll nodes hspans]
  exact not_writesAny nodes h

lemma writesAny_filter (nodes : List Node) : WritesAny helpers mark context nodes ↔
    WritesAny helpers mark context (nodes.filter fun n => n.mentions mark) := by
  induction nodes with
  | nil => rfl
  | cons n rest ih =>
    rw [WritesAny, List.filter_cons, ih]
    cases h : n.mentions mark with
    | true => rw [if_pos rfl, WritesAny]
    | false => simp [not_writes n h]

lemma writesAny_text {s : String} (h : hasPart mark.toList s.toList = true) :
    WritesAny helpers mark context [.text s] := by
  simp only [WritesAny, Node.Writes, h, or_false]

lemma writesAny_cons {n : Node} {rest : List Node} :
    WritesAny helpers mark context (n :: rest) ↔
      WritesAny helpers mark context [n] ∨ WritesAny helpers mark context rest := by
  simp only [WritesAny, or_false]

lemma writesAny_conditional {condition : Condition} {thenBranch elseBranch : List Node} {b : Bool}
    (h : condition.eval context = .ok b) :
    WritesAny helpers mark context [.conditional condition thenBranch elseBranch] ↔
      WritesAny helpers mark context (if b then thenBranch else elseBranch) := by
  simp only [WritesAny, Node.Writes, h, or_false, Except.ok.injEq]
  cases b <;> simp

lemma writesAny_loop {α : Type} {ofItem : α → Json} {xs : List α} {P : α → Prop} {source : String}
    {body : List Node} (hitems : resolvePath source context = .ok (.arr (xs.map ofItem)))
    (h : ∀ x index, WritesAny helpers mark (loopContext context (ofItem x) index) body ↔ P x) :
    WritesAny helpers mark context [.loop source body] ↔ ∃ x ∈ xs, P x := by
  simp only [WritesAny, Node.Writes, hitems, or_false, Except.ok.injEq, Json.arr.injEq,
    exists_eq_left', List.getElem?_map, Option.map_eq_some_iff]
  constructor
  · rintro ⟨i, -, ⟨x, hx, rfl⟩, hwrites⟩
    exact ⟨x, List.mem_of_getElem? hx, (h x i).1 hwrites⟩
  · rintro ⟨x, hmem, hp⟩
    obtain ⟨i, hi⟩ := List.getElem?_of_mem hmem
    exact ⟨i, _, ⟨x, hi, rfl⟩, (h x i).2 hp⟩

lemma writesAny_loop_iff_ne_nil {α : Type} {ofItem : α → Json} {xs : List α} {source : String}
    {body : List Node} (hitems : resolvePath source context = .ok (.arr (xs.map ofItem)))
    (h : ∀ x index, WritesAny helpers mark (loopContext context (ofItem x) index) body) :
    WritesAny helpers mark context [.loop source body] ↔ xs ≠ [] := by
  rw [writesAny_loop hitems fun x index => iff_of_true (h x index) trivial]
  simp [List.eq_nil_iff_forall_not_mem]

end Marks

/-- A name is among those that are filled in between two texts of the template. -/
def Lists (opening closing : String) (spans : List Span) (name : String) : Prop :=
  ∃ before text rest after,
    spans = before ++ .own opening :: .filled text :: .own (closing ++ rest) :: after ∧
    name ∈ Script.identifiers text.toList

section Listing

variable {helpers : Table Helper} {context : Json} {spans : List Span} {opening closing : String}
  {text rest name : String} {earlier part later : List Node}

/-- A list has one place at which something stands that is nowhere else in it. -/
lemma place_unique {α : Type} {P : α → Prop} {a b u w : List α} {y z : α} (ha : ∀ s ∈ a, ¬ P s)
    (hb : ∀ s ∈ b, ¬ P s) (hz : P z) (h : a ++ y :: b = u ++ z :: w) : a = u ∧ y = z ∧ b = w := by
  rcases List.append_eq_append_iff.1 h with ⟨c, hu, hc⟩ | ⟨c, ha', hc⟩
  · cases c with
    | nil =>
      obtain ⟨rfl, rfl⟩ := List.cons.inj hc
      exact ⟨by rw [hu, List.append_nil], rfl, rfl⟩
    | cons d c =>
      obtain ⟨rfl, rfl⟩ := List.cons.inj hc
      exact absurd hz (hb z (by simp))
  · cases c with
    | nil =>
      obtain ⟨rfl, rfl⟩ := List.cons.inj hc
      exact ⟨by rw [ha', List.append_nil], rfl, rfl⟩
    | cons d c =>
      obtain ⟨rfl, rfl⟩ := List.cons.inj hc
      exact absurd hz (ha z (by simp [ha']))

lemma hasPart_append (s t : String) : hasPart s.toList (s ++ t).toList = true := by
  rw [hasPart_iff, String.toList_append]
  exact (List.prefix_append _ _).isInfix

lemma spansAll_append (nodes more : List Node) : spansAll helpers context (nodes ++ more) = (do
    let first ← spansAll helpers context nodes
    let others ← spansAll helpers context more
    return first ++ others) := by
  induction nodes with
  | nil =>
    rw [List.nil_append, spansAll]
    cases spansAll helpers context more <;> rfl
  | cons n rest ih =>
    rw [List.cons_append, spansAll, spansAll, ih]
    cases n.spans helpers context with
    | error e => rfl
    | ok first =>
      cases spansAll helpers context rest with
      | error e => rfl
      | ok others =>
        cases spansAll helpers context more with
        | error e => rfl
        | ok last => exact congrArg Except.ok (List.append_assoc first others last).symm

lemma spansAll_append_eq_ok {nodes more : List Node} :
    spansAll helpers context (nodes ++ more) = .ok spans ↔ ∃ first others,
      spansAll helpers context nodes = .ok first ∧ spansAll helpers context more = .ok others ∧
      spans = first ++ others := by
  rw [spansAll_append]
  exact combine_eq_ok_iff

lemma spansAll_conditional {condition : Condition} {thenBranch elseBranch more : List Node} {b : Bool}
    (h : condition.eval context = .ok b) :
    spansAll helpers context (.conditional condition thenBranch elseBranch :: more) =
      spansAll helpers context ((if b then thenBranch else elseBranch) ++ more) := by
  rw [spansAll, Node.spans, h, spansAll_append]
  cases b <;> rfl

lemma not_mem_of_not_hasOwn {mark : String} (h : ¬ HasOwn mark spans) :
    ∀ s ∈ spans, ¬ HasOwn mark [s] := by
  rintro s hs ⟨t, ht, hmark⟩
  obtain rfl := List.mem_singleton.1 ht
  exact h ⟨t, hs, hmark⟩

/-- Between two texts of which the second has a mark that no other node has, the names are those that
are filled in there. -/
lemma lists_iff_of_closing (h : spansAll helpers context (earlier ++ part ++ later) = .ok spans)
    (hpart : spansAll helpers context part =
      .ok [.own opening, .filled text, .own (closing ++ rest)])
    (hearlier : mentionAny closing earlier = false) (hlater : mentionAny closing later = false)
    (hopening : hasPart closing.toList opening.toList = false) :
    Lists opening closing spans name ↔ name ∈ Script.identifiers text.toList := by
  obtain ⟨_, c, hfirst, hc, rfl⟩ := spansAll_append_eq_ok.1 h
  obtain ⟨a, b, ha, hb, rfl⟩ := spansAll_append_eq_ok.1 hfirst
  cases hb.symm.trans hpart
  have hbefore : ∀ s ∈ a ++ [.own opening, .filled text], ¬ HasOwn closing [s] := by
    refine not_mem_of_not_hasOwn fun hown => ?_
    rcases hasOwn_append.1 hown with hown | ⟨s, hs, hmark⟩
    · exact not_hasOwn ha hearlier hown
    · have hs : s = opening := by simpa using hs
      rw [hs, hopening] at hmark
      cases hmark
  have hafter := not_mem_of_not_hasOwn (not_hasOwn hc hlater)
  constructor
  · rintro ⟨before, text', rest', after, hspans, hname⟩
    have heq : (a ++ [.own opening, .filled text]) ++ .own (closing ++ rest) :: c =
        (before ++ [.own opening, .filled text']) ++ .own (closing ++ rest') :: after := by
      simpa using hspans
    have hsame := (place_unique hbefore hafter (hasOwn_own.2 (hasPart_append closing rest')) heq).1
    obtain ⟨-, htail⟩ := List.append_inj' hsame rfl
    cases htail
    exact hname
  · exact fun hname => ⟨a, text, rest, c, by simp, hname⟩

/-- Between two texts of which no other node has the first, the names are those that are filled in
there. -/
lemma lists_iff_of_opening (h : spansAll helpers context (earlier ++ part ++ later) = .ok spans)
    (hpart : spansAll helpers context part =
      .ok [.own opening, .filled text, .own (closing ++ rest)])
    (hearlier : mentionAny opening earlier = false) (hlater : mentionAny opening later = false)
    (hclosing : hasPart opening.toList (closing ++ rest).toList = false) :
    Lists opening closing spans name ↔ name ∈ Script.identifiers text.toList := by
  obtain ⟨_, c, hfirst, hc, rfl⟩ := spansAll_append_eq_ok.1 h
  obtain ⟨a, b, ha, hb, rfl⟩ := spansAll_append_eq_ok.1 hfirst
  cases hb.symm.trans hpart
  have hbefore := not_mem_of_not_hasOwn (not_hasOwn ha hearlier)
  have hafter : ∀ s ∈ .filled text :: .own (closing ++ rest) :: c, ¬ HasOwn opening [s] := by
    refine not_mem_of_not_hasOwn fun hown => ?_
    have hparts : HasOwn opening ([.filled text, .own (closing ++ rest)] ++ c) := hown
    rcases hasOwn_append.1 hparts with ⟨s, hs, hmark⟩ | hown
    · have hs : s = closing ++ rest := by simpa using hs
      rw [hs, hclosing] at hmark
      cases hmark
    · exact not_hasOwn hc hlater hown
  constructor
  · rintro ⟨before, text', rest', after, hspans, hname⟩
    have heq : a ++ .own opening :: (.filled text :: .own (closing ++ rest) :: c) =
        before ++ .own opening :: (.filled text' :: .own (closing ++ rest') :: after) := by
      simpa using hspans
    have hopening : HasOwn opening [.own opening] := hasOwn_own.2 (by simp [hasPart_iff])
    have htail := (place_unique hbefore hafter hopening heq).2.2
    cases (List.cons.inj htail).1
    exact hname
  · exact fun hname => ⟨a, text, rest, c, by simp, hname⟩

lemma spansAll_join {path raw last : String} {xs : List String}
    (hjoin : helpers.lookup "join" = some Helper.join)
    (hxs : resolveOperand path context = .ok (.ofStrings xs)) :
    spansAll helpers context
      [.text opening, .call "join" [path, "\", \""] raw, .text last] =
        .ok [.own opening, .filled (join ", " xs), .own last] := by
  have hseparator : resolveOperand "\", \"" context = .ok (.str ", ") := rfl
  have hcall : callText Helper.join [.ofStrings xs, .str ", "] = join ", " xs := by
    have htexts : (xs.map Json.str).map Helper.text = xs := by
      rw [List.map_map]
      exact map_eq_self fun x _ => rfl
    simp [callText, Helper.join, Json.ofStrings, Json.elements, Except.map, stringify, htexts,
      Helper.text, Json.isNull, Json.display]
  simp [spansAll, Node.spans, hjoin, hxs, hseparator, hcall, Except.map, bind, Except.bind, pure,
    Except.pure]

lemma not_lists_of_closing (h : ¬ HasOwn closing spans) : ¬ Lists opening closing spans name := by
  rintro ⟨before, text, rest, after, rfl, -⟩
  exact h ⟨closing ++ rest, by simp, hasPart_append closing rest⟩

lemma not_lists_of_opening (h : ¬ HasOwn opening spans) : ¬ Lists opening closing spans name := by
  rintro ⟨before, text, rest, after, rfl, -⟩
  exact h ⟨opening, by simp, by simp [hasPart_iff]⟩

end Listing

end ViewWriter.Template
