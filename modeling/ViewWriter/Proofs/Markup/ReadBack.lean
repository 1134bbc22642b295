import ViewWriter.Proofs.Markup.Reading
import ViewWriter.Proofs.Schema.Forest
import ViewWriter.Proofs.Table

/-! Markup reads back as the tree that it was written for. -/

namespace ViewWriter.Markup

open ViewWriter.Text ViewWriter.Schema

/-- Properties that are written as attributes under their own names. -/
def isShown (e : String × Json) : Bool := !(metaKeys.contains e.1 || classKeys.contains e.1)

section Elements

variable (d : Dialect) (classes : Table String)

def classesOf (r : Record) : List String :=
  (Dialect.styleClassOf classes r).toList ++ staticClasses r.props

def attributesOf (r : Record) : List (String × String) :=
  (if (classesOf classes r).isEmpty then []
    else [(d.attributeName "class", join " " (classesOf classes r))]) ++
  (r.props.filter isShown).map fun e => (d.attributeName e.1, e.2.display)

def textOf (r : Record) : String := if r.content.isNull then "" else r.content.display

mutual

/-- The element of a tree; children win over content. -/
def elementOf : Tree → Element
  | .node r cs =>
    .mk (d.tagName r) (attributesOf d classes r) (if cs.isEmpty then textOf r else "")
      (elementsOf cs)

def elementsOf : List Tree → List Element
  | [] => []
  | t :: rest => elementOf t :: elementsOf rest

end

end Elements

/-- A node whose markup is made of words and texts alone. -/
structure Plain (d : Dialect) (r : Record) : Prop where
  tag_ne_empty : d.tagName r ≠ ""
  tag_chars : ∀ c ∈ (d.tagName r).toList, isTagChar c
  names : ∀ e ∈ r.props, isShown e → ∀ c ∈ e.1.toList, isNameChar c
  no_event : ∀ e ∈ r.props, isShown e → eventName? e.1 = none
  texts : ∀ e ∈ r.props, isShown e → ∃ s, e.2 = .str s
  content : r.content = .null ∨ ∃ s, r.content = .str s

/-- A plain node that is empty if its element has no end tag. -/
structure PlainCell (d : Dialect) (c : Cell) : Prop where
  plain : Plain d c.record
  void : voidElements.contains (lower (d.tagName c.record)) →
    c.record.content = .null ∧ c.children = []

/-- What reading back needs to know of a dialect. -/
structure Legible (d : Dialect) : Prop where
  name : ∀ name : String, (∀ c ∈ name.toList, isNameChar c) →
    ∀ c ∈ (d.attributeName name).toList, isNameChar c
  moduleClass : d.moduleClass = none
  voidClose : ∃ closed, d.voidClose.toList = endOfTag closed
  text : ∃ f, Escapes f ∧ (∀ c, '<' ∉ f c) ∧ ∀ s, d.text s = mapChars f s

section Dialects

lemma isNameChar_reactName {name : String} (h : ∀ c ∈ name.toList, isNameChar c) :
    ∀ c ∈ (Dialect.reactName name).toList, isNameChar c := by
  have hspelled : ∀ e ∈ Dialect.componentAttributes, e.2.toList.all isNameChar := by
    decide +kernel
  rw [Dialect.reactName]
  cases hl : Dialect.componentAttributes.lookup name with
  | none => exact h
  | some spelled => exact List.all_eq_true.1 (hspelled (name, spelled) (Table.mem_of_get? hl))

lemma legible_react : Legible (.react false) where
  name _ := isNameChar_reactName
  moduleClass := rfl
  voidClose := ⟨true, by decide⟩
  text := ⟨bracedEntity, escapes_braced, lt_notMem_bracedEntity, fun _ => rfl⟩

lemma legible_vue : Legible (.vue false) where
  name _ h := h
  moduleClass := rfl
  voidClose := ⟨true, by decide⟩
  text := ⟨bracedEntity, escapes_braced, lt_notMem_bracedEntity, fun _ => rfl⟩

lemma legible_angular (selectorPrefix : String) : Legible (.angular selectorPrefix) where
  name _ h := h
  moduleClass := rfl
  voidClose := ⟨false, by simp [Dialect.angular, endOfTag]⟩
  text := ⟨bracedEntity, escapes_braced, lt_notMem_bracedEntity, fun _ => rfl⟩

lemma legible_html : Legible .html where
  name _ h := h
  moduleClass := rfl
  voidClose := ⟨false, by decide⟩
  text := ⟨contentEntity, escapes_content, lt_notMem_contentEntity, fun _ => rfl⟩

end Dialects

section Attributes

variable {d : Dialect} {classes : Table String} {r : Record}

lemma filterMap_eq_map_filter {α β : Type} {p : α → Bool} {f : α → Option β} {g : α → β}
    {l : List α} (h : ∀ a ∈ l, f a = if p a then some (g a) else none) :
    l.filterMap f = (l.filter p).map g := by
  induction l with
  | nil => rfl
  | cons a l ih =>
    rw [List.filterMap_cons, h a List.mem_cons_self, ih fun b hb => h b (List.mem_cons_of_mem a hb)]
    cases ha : p a <;> simp [ha]

lemma ofValue?_str {name s : String} (h : eventName? name = none) :
    Attribute.ofValue? name (.str s) = some (.text name s) := by
  simp only [Attribute.ofValue?, bindingExpression, h]

lemma quotedPair_ne_empty (name value : String) : Dialect.quotedPair name value ≠ "" := by
  intro h
  have := congrArg String.toList h
  simp [Dialect.quotedPair] at this

lemma propAttributes_eq (h : Plain d r) :
    d.propAttributes r.props = (r.props.filter isShown).map fun e =>
      Dialect.quotedPair (d.attributeName e.1) (escapeQuoted e.2.display) := by
  refine filterMap_eq_map_filter fun e he => ?_
  cases hhidden : metaKeys.contains e.1 || classKeys.contains e.1 with
  | false =>
    have hshown : isShown e = true := by rw [isShown, hhidden]; rfl
    obtain ⟨s, hs⟩ := h.texts e he hshown
    rw [if_neg (by decide), if_pos hshown, hs, ofValue?_str (h.no_event e he hshown)]
    simp [Dialect.writeAttribute, Dialect.staticAttribute, quotedPair_ne_empty, Json.display]
  | true =>
    have hshown : isShown e = false := by rw [isShown, hhidden]; rfl
    rw [if_pos rfl, hshown, if_neg (by decide)]

lemma bindingExpression_content (h : Plain d r) : bindingExpression r.content = none := by
  rcases h.content with hc | ⟨s, hc⟩ <;> rw [hc] <;> rfl

lemma attributes_eq (hd : Legible d) (h : Plain d r) :
    d.attributes r (Dialect.styleClassOf classes r) = (attributesOf d classes r).map fun a =>
      Dialect.quotedPair a.1 (escapeQuoted a.2) := by
  have hcontent : d.contentAttribute r.content = none := by
    rw [Dialect.contentAttribute, bindingExpression_content h]
    cases d.contentBinding <;> rfl
  have hclass : d.classAttribute (Dialect.styleClassOf classes r) (staticClasses r.props) =
      if (classesOf classes r).isEmpty then none
      else some (d.staticAttribute "class" (join " " (classesOf classes r))) := by
    simp only [Dialect.classAttribute, hd.moduleClass]
    rfl
  rw [Dialect.attributes, hcontent, hclass, propAttributes_eq h, attributesOf, List.map_append,
    List.map_map, Option.toList_none, List.append_nil]
  split_ifs <;> rfl

lemma names_attributesOf (hd : Legible d) (h : Plain d r) :
    ∀ a ∈ attributesOf d classes r, ∀ c ∈ a.1.toList, isNameChar c := by
  intro a ha
  rcases List.mem_append.1 ha with ha | ha
  · split_ifs at ha
    · cases ha
    · obtain rfl := List.mem_singleton.1 ha
      exact hd.name "class" (List.all_eq_true.1 (by decide))
  · obtain ⟨e, he, rfl⟩ := List.mem_map.1 ha
    obtain ⟨hmem, hshown⟩ := List.mem_filter.1 he
    exact hd.name e.1 (h.names e hmem hshown)

lemma isStart (hd : Legible d) (h : Plain d r) :
    IsStart (d.tagName r) (attributesOf d classes r) where
  ne_empty := h.tag_ne_empty
  chars := h.tag_chars
  names := names_attributesOf hd h

lemma toList_opening (classes : Table String) (hd : Legible d) (h : Plain d r) (closed : Bool) :
    (d.opening r (Dialect.styleClassOf classes r)).toList ++ endOfTag closed =
      startChars (d.tagName r) (attributesOf d classes r) closed := by
  have hattribute (a : String × String) :
      (" " ++ Dialect.quotedPair a.1 (escapeQuoted a.2)).toList =
        ' ' :: (a.1.toList ++ '=' :: '"' :: (a.2.toList.flatMap quotedEntity ++ ['"'])) := by
    simp [Dialect.quotedPair, escapeQuoted, mapChars]
  simp only [Dialect.opening, attributes_eq hd h, String.toList_append, toList_concat,
    List.map_map, List.flatMap_map, Function.comp_apply, hattribute, startChars, attributeChars,
    List.append_assoc]
  rfl

end Attributes

section Trees

variable {d : Dialect} {classes : Table String} {unit : String}

lemma shows_empty (hd : Legible d) {r : Record} (h : Plain d r) (hnull : r.content = .null) :
    Shows (d.leaf r (Dialect.styleClassOf classes r)).toList
      [.mk (d.tagName r) (attributesOf d classes r) "" []] := by
  have hstart : IsStart (d.tagName r) (attributesOf d classes r) := isStart hd h
  have hopening := toList_opening classes hd h
  have hgiven : r.content.isNull = true := by rw [hnull]; rfl
  simp only [Dialect.leaf, hgiven, Bool.not_true, Bool.false_eq_true, if_false]
  split_ifs with hvoid hself
  · obtain ⟨closed, hclose⟩ := hd.voidClose
    rw [String.toList_append, hclose, hopening]
    exact shows_leaf hstart (by rw [hvoid, Bool.or_true])
  · have hclose : " />".toList = endOfTag true := rfl
    rw [String.toList_append, hclose, hopening]
    exact shows_leaf hstart rfl
  · have hshows := shows_text hstart (Bool.eq_false_iff.2 hvoid) (List.not_mem_nil (a := '<'))
    rw [decode, ← hopening] at hshows
    simpa [endOfTag, endChars] using hshows

lemma shows_content (hd : Legible d) {r : Record} (h : Plain d r) {s : String}
    (hs : r.content = .str s) (hv : voidElements.contains (lower (d.tagName r)) = false) :
    Shows (d.leaf r (Dialect.styleClassOf classes r)).toList
      [.mk (d.tagName r) (attributesOf d classes r) s []] := by
  obtain ⟨f, hf, hlt, htext⟩ := hd.text
  have hcontent : (d.content r.content).toList = s.toList.flatMap f := by
    have : d.content r.content = d.text s := by rw [hs]; rfl
    rw [this, htext, mapChars, String.toList_ofList]
  have hstart : IsStart (d.tagName r) (attributesOf d classes r) := isStart hd h
  have hplain : '<' ∉ s.toList.flatMap f := by simpa using fun c _ => hlt c
  have hshows := shows_text hstart hv hplain
  rw [decode_flatMap hf, String.ofList_toList, ← toList_opening classes hd h] at hshows
  have hgiven : r.content.isNull = false := by rw [hs]; rfl
  simp only [Dialect.leaf, hgiven, Bool.not_false, if_true]
  simpa [hcontent, endOfTag, endChars] using hshows

lemma shows_leafLine (classes : Table String) (hd : Legible d) {r : Record} (h : Plain d r)
    (hvoid : voidElements.contains (lower (d.tagName r)) → r.content = .null) :
    Shows (d.leaf r (Dialect.styleClassOf classes r)).toList
      [.mk (d.tagName r) (attributesOf d classes r) (textOf r) []] := by
  rcases h.content with hnull | ⟨s, hs⟩
  · have htext : textOf r = "" := by rw [textOf, hnull]; rfl
    rw [htext]
    exact shows_empty hd h hnull
  · have htext : textOf r = s := by rw [textOf, hs]; rfl
    rw [htext]
    refine shows_content hd h hs (Bool.eq_false_iff.2 fun hv => ?_)
    have hnull := hvoid hv
    rw [hs] at hnull
    cases hnull

def broken (ls : List String) : List Char := ls.flatMap fun l => '\n' :: l.toList

lemma broken_append (ls ms : List String) : broken (ls ++ ms) = broken ls ++ broken ms :=
  List.flatMap_append

lemma shows_node (hd : Legible d) {q : Option String} {margin : String}
    (hmargin : ∀ c ∈ margin.toList, isBlank c) {r : Record} {cs : List Tree}
    (h : PlainCell d ⟨r, q, rootIds cs⟩)
    (hbelow : Shows (broken (d.linesOf unit classes (margin ++ unit) cs))
      (elementsOf d classes cs)) :
    ∃ first rest, d.lines unit classes margin (.node r cs) = first :: rest ∧
      Shows (first.toList ++ broken rest) [elementOf d classes (.node r cs)] := by
  cases cs with
  | nil =>
    refine ⟨_, [], by rw [Dialect.lines], ?_⟩
    have hshows := (shows_blank hmargin).append (shows_leafLine classes hd h.plain
      fun hv => (h.void hv).1)
    simpa [broken, elementOf, elementsOf] using hshows
  | cons t cs =>
    have hv : voidElements.contains (lower (d.tagName r)) = false := by
      rw [Bool.eq_false_iff]
      intro hv
      have hnone := (h.void hv).2
      cases hnone
    refine ⟨_, _, by rw [Dialect.lines]; rfl, ?_⟩
    have hbreak : ∀ c ∈ '\n' :: margin.toList, isBlank c :=
      List.forall_mem_cons.2 ⟨by decide, hmargin⟩
    have hinside := hbelow.append (shows_blank hbreak)
    rw [List.append_nil] at hinside
    have hstart : IsStart (d.tagName r) (attributesOf d classes r) := isStart hd h.plain
    have helement := hinside.element (List.cons_ne_nil _ _) hstart hv
    have hshows := (shows_blank hmargin).append helement
    rw [← toList_opening classes hd h.plain] at hshows
    simpa [broken, elementOf, elementsOf, endOfTag, endChars] using hshows

lemma shows_linesOf (hd : Legible d) (hunit : ∀ c ∈ unit.toList, isBlank c) (F : List Tree)
    {q : Option String} {margin : String} (hmargin : ∀ c ∈ margin.toList, isBlank c)
    (h : ∀ c ∈ cells q F, PlainCell d c) :
    Shows (broken (d.linesOf unit classes margin F)) (elementsOf d classes F) := by
  induction F using forest_induction generalizing q margin with
  | nil => exact shows_blank (by simp [broken, Dialect.linesOf])
  | cons r cs rest ihc ihr =>
    rw [cells_cons, List.forall_mem_cons, List.forall_mem_append] at h
    obtain ⟨hr, hcs, hrest⟩ := h
    have hinner : ∀ c ∈ (margin ++ unit).toList, isBlank c := by
      rw [String.toList_append, List.forall_mem_append]
      exact ⟨hmargin, hunit⟩
    obtain ⟨first, others, hlines, hnode⟩ := shows_node hd hmargin hr (ihc hinner hcs)
    have hbreak : Shows ['\n'] [] := shows_blank (List.forall_mem_singleton.2 (by decide))
    have hshows := (hbreak.append hnode).append (ihr hmargin hrest)
    rw [Dialect.linesOf, hlines, broken_append]
    simpa [broken, elementsOf] using hshows

end Trees

/-- The dialects of the four frameworks, without style modules. -/
inductive WithoutModules : Dialect → Prop
  | react : WithoutModules (.react false)
  | vue : WithoutModules (.vue false)
  | angular (selectorPrefix : String) : WithoutModules (.angular selectorPrefix)
  | html : WithoutModules .html

lemma WithoutModules.legible {d : Dialect} (h : WithoutModules d) : Legible d := by
  cases h with
  | react => exact legible_react
  | vue => exact legible_vue
  | angular selectorPrefix => exact legible_angular selectorPrefix
  | html => exact legible_html

/-- Markup without style modules reads back as the tree that it was written for: the elements stand
as the nodes do, and their texts and attributes are those of the nodes. -/
theorem readMarkup_render {d : Dialect} (hd : WithoutModules d) (indent : ℤ)
    (classes : Table String) (t : Tree) (h : ∀ c ∈ cells none [t], PlainCell d c) :
    readMarkup (d.render (String.ofList (spaces indent)) classes t) =
      some [elementOf d classes t] := by
  obtain ⟨r, cs⟩ := t
  rw [cells_cons, List.forall_mem_cons, List.forall_mem_append] at h
  obtain ⟨hr, hcs, -⟩ := h
  have hunit : ∀ c ∈ (String.ofList (spaces indent)).toList, isBlank c := by
    intro c hc
    rw [String.toList_ofList, spaces] at hc
    rw [List.eq_of_mem_replicate hc]
    exact isBlank_space
  have hempty : ∀ c ∈ "".toList, isBlank c := List.all_eq_true.1 (by decide)
  have hinner : ∀ c ∈ ("" ++ String.ofList (spaces indent)).toList, isBlank c := by
    rwa [String.empty_append]
  have hbelow : Shows (broken (d.linesOf (String.ofList (spaces indent)) classes
      ("" ++ String.ofList (spaces indent)) cs)) (elementsOf d classes cs) :=
    shows_linesOf hd.legible hunit cs hinner hcs
  obtain ⟨first, rest, hlines, hshows⟩ := shows_node hd.legible hempty hr hbelow
  have hrender : (d.render (String.ofList (spaces indent)) classes (.node r cs)).toList =
      first.toList ++ broken rest := by
    rw [Dialect.render, hlines, join, String.toList_ofList, List.map_cons, joinWith_eq,
      List.flatMap_map]
    rfl
  exact readMarkup_of_shows (hrender ▸ hshows)

lemma readMarkup_render_list :
    let item (id text : String) : Tree := .node ⟨id, "li", [], [], .str text⟩ []
    let list : Tree := .node ⟨"list", "ul", [("title", .str "\"a\" < b")], [], .null⟩
      [item "one" "</li> & \x7bx\x7d", .node ⟨"rule", "hr", [], [], .null⟩ [], item "two" ""]
    readMarkup ((Dialect.react false).render (String.ofList (spaces 2)) [("list", "plain")] list) =
      some [.mk "ul" [("className", "plain"), ("title", "\"a\" < b")] "" [
        .mk "li" [] "</li> & \x7bx\x7d" [], .mk "hr" [] "" [], .mk "li" [] "" []]] := by
  intro item list
  have htag : ∀ c ∈ "li".toList, isTagChar c := List.all_eq_true.1 (by decide +kernel)
  have hitem (id text : String) (q : Option String) :
      PlainCell (.react false) ⟨⟨id, "li", [], [], .str text⟩, q, []⟩ := by
    refine ⟨⟨?_, htag, by simp, by simp, by simp, .inr ⟨text, rfl⟩⟩, fun hv => ?_⟩
    · exact (by decide : "li" ≠ "")
    · exact absurd hv (by decide +kernel : ¬ voidElements.contains (lower "li"))
  refine (readMarkup_render .react 2 [("list", "plain")] list ?_).trans rfl
  have hnil (q : Option String) : cells q [] = [] := rfl
  simp only [list, item, cells_cons, hnil, List.append_nil, List.nil_append,
    List.forall_mem_cons]
  have hul : ∀ c ∈ "ul".toList, isTagChar c := List.all_eq_true.1 (by decide +kernel)
  have hhr : ∀ c ∈ "hr".toList, isTagChar c := List.all_eq_true.1 (by decide +kernel)
  have htitle : ∀ c ∈ "title".toList, isNameChar c := List.all_eq_true.1 (by decide +kernel)
  refine ⟨⟨⟨by decide, hul, ?_, by decide +kernel, ?_, .inl rfl⟩, ?_⟩, hitem _ _ _,
    ⟨⟨by decide, hhr, by simp, by simp, by simp, .inl rfl⟩, ?_⟩, hitem _ _ _, by simp⟩
  · intro e he _
    rw [List.mem_singleton.1 he]
    exact htitle
  · exact fun e he _ => ⟨_, congrArg Prod.snd (List.mem_singleton.1 he)⟩
  · exact fun hv => absurd hv (by decide +kernel : ¬ voidElements.contains (lower "ul"))
  · exact fun _ => ⟨rfl, rfl⟩

end ViewWriter.Markup
