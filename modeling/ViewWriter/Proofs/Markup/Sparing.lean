import ViewWriter.Markup.Render
import ViewWriter.Proofs.Json.Texts
import ViewWriter.Proofs.Name.Case
import ViewWriter.Proofs.Script.Identifier

/-! Markup without a needle. A dialect writes none for a node if its tag, its attributes and what it
writes of its content have none, and the attributes have none if the names and the values of the
properties do. Where the needle begins with an angle bracket, no value counts that is escaped. -/

namespace ViewWriter.Markup

open ViewWriter.Text ViewWriter.Schema

variable {n : Needle} {d : Dialect} {r : Record} {styleClass : Option String} {name value : String}

namespace Dialect

/-- What a dialect writes for a node avoids the needle. -/
structure Spares (d : Dialect) (n : Needle) (r : Record) (styleClass : Option String) : Prop where
  void : d.voidClose = ">" ∨ d.voidClose = " />"
  startTag : n.Avoids ("<" ++ d.tagName r).toList
  endTag : n.Avoids ("</" ++ d.tagName r).toList
  attributes : ∀ a ∈ d.attributes r styleClass, n.Avoids a.toList
  content : n.Avoids (d.content r.content).toList

lemma avoids_spaced {tag : String} {pieces : List String} (htag : n.Avoids tag.toList)
    (h : ∀ a ∈ pieces, n.Avoids a.toList) :
    n.Avoids (tag ++ concat (pieces.map fun a => " " ++ a)).toList := by
  rw [String.toList_append, toList_concat]
  generalize tag.toList = cs at htag
  induction pieces generalizing cs with
  | nil => simpa using htag
  | cons a rest ih =>
    obtain ⟨ha, hrest⟩ := List.forall_mem_cons.1 h
    rw [List.map_cons, List.flatMap_cons, ← List.append_assoc]
    refine ih hrest _ ?_
    rw [String.toList_append]
    exact htag.gap (by decide) ha

lemma avoids_opening (h : d.Spares n r styleClass) : n.Avoids (d.opening r styleClass).toList :=
  avoids_spaced h.startTag h.attributes

lemma avoids_closed {s closing : String} (hs : n.Avoids s.toList)
    (h : closing = ">" ∨ closing = " />") : n.Avoids (s ++ closing).toList := by
  rcases h with rfl | rfl
  · exact hs.followed (by decide)
  · rw [String.toList_append]
    have hend : n.Avoids (' ' :: ['/', '>']) := Needle.avoids_of_slashes (by decide)
    exact hs.append_stop (by decide) hend

lemma avoids_endTag (h : d.Spares n r styleClass) : n.Avoids ("</" ++ d.tagName r ++ ">").toList :=
  h.endTag.followed (by decide)

lemma avoids_before_endTag {s : String} (hs : n.Avoids s.toList) (h : d.Spares n r styleClass) :
    n.Avoids (s ++ ("</" ++ d.tagName r ++ ">")).toList := by
  have hend : n.Avoids ('<' :: (['/'] ++ (d.tagName r).toList ++ ['>'])) := by
    have htag := avoids_endTag h
    rwa [String.toList_append, String.toList_append] at htag
  simp only [String.toList_append]
  exact hs.append_stop (by decide) hend

lemma avoids_leaf (h : d.Spares n r styleClass) : n.Avoids (d.leaf r styleClass).toList := by
  have hopen := avoids_opening h
  rw [leaf]
  split_ifs
  · have hcontent := avoids_before_endTag (hopen.joined (m := ">") (by decide) h.content) h
    simpa only [String.append_assoc] using hcontent
  · exact avoids_closed hopen h.void
  · exact avoids_closed hopen (.inr rfl)
  · have hempty := avoids_before_endTag (hopen.followed (e := ">") (by decide)) h
    rw [show "></" = ">" ++ "</" from rfl]
    simpa only [String.append_assoc] using hempty

section Trees

variable {unit : String} {classes : Table String}

mutual

lemma avoids_lines (t : Tree) {margin : String} (hunit : n.Leads unit.toList)
    (hmargin : n.Leads margin.toList)
    (h : ∀ r ∈ t.records, d.Spares n r (styleClassOf classes r)) :
    ∀ l ∈ d.lines unit classes margin t, n.Avoids l.toList := by
  match t with
  | .node r [] =>
    have hr := h r List.mem_cons_self
    intro l hl
    rw [List.mem_singleton.1 hl, String.toList_append]
    exact hmargin _ (avoids_leaf hr)
  | .node r (c :: cs) =>
    have hr := h r List.mem_cons_self
    have hinner : n.Leads (margin ++ unit).toList := fun ds hds => by
      rw [String.toList_append, List.append_assoc]
      exact hmargin _ (hunit _ hds)
    intro l hl
    rcases List.mem_append.1 hl with hl | hl
    · rcases List.mem_cons.1 hl with rfl | hl
      · rw [String.append_assoc, String.toList_append]
        exact hmargin _ ((avoids_opening hr).followed (by decide))
      · exact avoids_linesOf (c :: cs) hunit hinner
          (fun r hr => h r (List.mem_cons_of_mem _ hr)) l hl
    · rw [List.mem_singleton.1 hl, String.append_assoc, String.append_assoc, String.toList_append,
        ← String.append_assoc]
      exact hmargin _ (avoids_endTag hr)

lemma avoids_linesOf (ts : List Tree) {margin : String} (hunit : n.Leads unit.toList)
    (hmargin : n.Leads margin.toList)
    (h : ∀ r ∈ Tree.recordsOf ts, d.Spares n r (styleClassOf classes r)) :
    ∀ l ∈ d.linesOf unit classes margin ts, n.Avoids l.toList := by
  match ts with
  | [] => exact fun _ hl => by cases hl
  | t :: rest =>
    intro l hl
    rcases List.mem_append.1 hl with hl | hl
    · exact avoids_lines t hunit hmargin (fun r hr => h r (List.mem_append_left _ hr)) l hl
    · exact avoids_linesOf rest hunit hmargin (fun r hr => h r (List.mem_append_right _ hr)) l hl

end

lemma avoids_render {t : Tree} (hunit : n.Leads unit.toList)
    (h : ∀ r ∈ t.records, d.Spares n r (styleClassOf classes r)) :
    n.Avoids (d.render unit classes t).toList := by
  rw [render, join, String.toList_ofList]
  exact Needle.avoids_joinWith (by decide)
    (List.forall_mem_map.2 (avoids_lines t hunit (fun _ hds => hds) h))

end Trees

end Dialect

/-! Attributes. -/

/-- The names in an attribute avoid the needle, also in small letters where they are written so, and its
value avoids the needle unless it is escaped against it. -/
def Attribute.Spared (n : Needle) (lowers : Bool) : Attribute → Prop
  | event name handler => n.Avoids name.toList ∧ n.Avoids (lower name).toList ∧ n.Escapable handler.toList
  | binding name expression =>
    n.Avoids name.toList ∧ (lowers = true → n.Avoids (lower name).toList) ∧ n.Escapable expression.toList
  | flag name => n.Avoids name.toList
  | number name _ => n.Avoids name.toList
  | text name value => n.Avoids name.toList ∧ n.Escapable value.toList

lemma lowerAfter_letters {cs : List Char} (h : ∀ c ∈ cs, isAsciiLetter c = true) (before : List Char) :
    lowerAfter before cs = cs.map asciiLower := by
  induction cs generalizing before with
  | nil => rfl
  | cons c rest ih =>
    obtain ⟨hc, hrest⟩ := List.forall_mem_cons.1 h
    have hform : c ≠ 'Σ' ∧ smallForm c = [asciiLower c] := by
      rcases Bool.or_eq_true_iff.1 hc with hc | hc
      · exact Name.of_upper (P := fun c => c ≠ 'Σ' ∧ smallForm c = [asciiLower c]) (by decide) hc
      · exact Name.of_lower (P := fun c => c ≠ 'Σ' ∧ smallForm c = [asciiLower c]) (by decide) hc
    rw [lowerAfter, if_neg (by simpa using hform.1), hform.2, ih hrest, List.map_cons, List.singleton_append]

lemma avoids_letters {cs : List Char} (h : ∀ c ∈ cs, isAsciiLetter c = true) :
    n.Avoids cs ∧ n.Avoids (cs.map asciiLower) := by
  have hletter : ∀ c ∈ cs, c ≠ '/' ∧ asciiLower c ≠ '/' := by
    intro c hc
    rcases Bool.or_eq_true_iff.1 (h c hc) with hc | hc
    · exact Name.of_upper (P := fun c => c ≠ '/' ∧ asciiLower c ≠ '/') (by decide) hc
    · exact Name.of_lower (P := fun c => c ≠ '/' ∧ asciiLower c ≠ '/') (by decide) hc
  refine ⟨Needle.avoids_of_notMem_slash fun hm => (hletter _ hm).1 rfl,
    Needle.avoids_of_notMem_slash fun hm => ?_⟩
  obtain ⟨c, hc, hslash⟩ := List.mem_map.1 hm
  exact (hletter c hc).2 hslash

lemma letters_of_eventName {event : String} (h : eventName? name = some event) :
    ∀ c ∈ event.toList, isAsciiLetter c = true := by
  unfold eventName? at h
  split at h
  · rename_i c rest _
    rw [Option.ite_none_right_eq_some, Bool.and_eq_true, List.all_eq_true] at h
    obtain ⟨⟨hc, hrest⟩, h⟩ := h
    cases h
    rw [String.toList_ofList, List.forall_mem_cons]
    exact ⟨by rw [isAsciiLetter, hc]; rfl, hrest⟩
  · cases h

lemma avoids_bindingExpression {v : Json} {expression : String} (hv : v.Avoids n)
    (h : bindingExpression v = some expression) : n.Avoids expression.toList := by
  cases v with
  | obj fields =>
    obtain ⟨w, hw, h⟩ := Option.bind_eq_some_iff.1 h
    cases w with
    | str s =>
      cases h
      exact Json.avoids_str.1 (Json.Avoids.get? hv hw)
    | _ => cases h
  | _ => cases h

lemma spared_ofValue {v : Json} {a : Attribute} {lowers : Bool} (hname : n.Avoids name.toList)
    (hsmall : lowers = true → n.Avoids (lower name).toList) (hv : n.head = '<' ∨ v.Avoids n)
    (h : Attribute.ofValue? name v = some a) : a.Spared n lowers := by
  unfold Attribute.ofValue? at h
  split at h
  · rename_i expression hexpression
    cases h
    exact ⟨hname, hsmall, hv.imp_right fun hv => avoids_bindingExpression hv hexpression⟩
  · split at h
    · cases h
    · split_ifs at h
      cases h
      exact hname
    · cases h
      exact hname
    · cases h
      exact hname
    · split at h
      · rename_i event hevent
        cases h
        have hletters := letters_of_eventName hevent
        obtain ⟨hevent, hlower⟩ := avoids_letters (n := n) hletters
        refine ⟨hevent, ?_, hv.imp_right Json.avoids_str.1⟩
        rwa [lower, String.toList_ofList, lowerChars, lowerAfter_letters hletters]
      · cases h
        exact ⟨hname, hv.imp_right Json.avoids_str.1⟩
    · cases h
      exact ⟨hname, hsmall, hv.imp_right (Json.avoids_compact .unicode _)⟩

lemma avoids_number (f : NumberFormat) (hf : f = .plain ∨ f = .source) (x : Number) :
    n.Avoids (x.write f).toList ∧ n.Avoids (x.writeWhole f).toList := by
  have hfloat (b : Binary64) : n.Avoids (f.write b).toList := by
    rcases hf with rfl | rfl
    · exact avoids_of_numeric (isNumeric_plain b)
    · exact avoids_of_numeric (isNumeric_source b)
  cases x with
  | int i => exact ⟨avoids_of_numeric (isNumeric_int i), avoids_of_numeric (isNumeric_int i)⟩
  | float b =>
    refine ⟨hfloat b, ?_⟩
    rw [Number.writeWhole]
    split
    · exact avoids_of_numeric (isNumeric_int _)
    · exact hfloat b

namespace Dialect

/-- A dialect that writes the needle only where an attribute, a class or a text brings it. It may
write the names of bound attributes in small letters. -/
structure Careful (d : Dialect) (n : Needle) (lowers : Bool) : Prop where
  void : d.voidClose = ">" ∨ d.voidClose = " />"
  writes : ∀ a : Attribute, a.Spared n lowers → n.Avoids (d.writeAttribute a).toList
  moduleClass : ∀ write ∈ d.moduleClass, ∀ c others, n.Escapable c.toList →
    (∀ o ∈ others, n.Escapable o.toList) → n.Avoids (write c others).toList
  text : ∀ s : String, n.Escapable s.toList → n.Avoids (d.text s).toList
  textBinding : ∀ e : String, n.Avoids e.toList → n.Avoids (d.textBinding e).toList
  contentBinding : ∀ write ∈ d.contentBinding, ∀ e : String, n.Avoids e.toList →
    n.Avoids (write e).toList

lemma avoids_quotedPair (hname : n.Avoids name.toList) (hvalue : n.Avoids value.toList) :
    n.Avoids (quotedPair name value).toList :=
  (hname.joined (by decide) hvalue).followed (by decide)

lemma avoids_static (hname : n.Avoids name.toList) (hvalue : n.Escapable value.toList) :
    n.Avoids (quotedPair name (escapeQuoted value)).toList :=
  avoids_quotedPair hname (Needle.isEntity_quoted.avoids hvalue)

lemma avoids_escapedPair {opening : String} (hopening : opening.toList.all isPlain = true)
    (hname : n.Avoids name.toList) (hvalue : n.Escapable value.toList) :
    n.Avoids (quotedPair (opening ++ name) (escapeAttribute value)).toList :=
  avoids_quotedPair (hname.preceded hopening) (Needle.isEntity_attribute.avoids hvalue)

lemma avoids_inBraces {s : String} (h : n.Avoids s.toList) : n.Avoids (inBraces s).toList :=
  (h.preceded (by decide)).followed (by decide)

lemma avoids_inDoubleBraces {s : String} (h : n.Avoids s.toList) :
    n.Avoids (inDoubleBraces s).toList :=
  (h.preceded (by decide)).followed (by decide)

lemma avoids_joinSpaces {xs : List String} (h : ∀ x ∈ xs, n.Escapable x.toList) :
    n.Escapable (join " " xs).toList := by
  by_cases hhead : n.head = '<'
  · exact .inl hhead
  · rw [join, String.toList_ofList]
    exact .inr (Needle.avoids_joinWith (by decide)
      (List.forall_mem_map.2 fun x hx => (h x hx).resolve_left hhead))

lemma avoids_classMember {t : String} (ht : t.toList.all isPlain = true)
    (h : n.Escapable name.toList) : n.Escapable (classMember t name).toList := by
  refine h.imp_right fun h => ?_
  rw [classMember]
  split_ifs with hidentifier
  · refine Needle.avoids_of_notMem_slash fun hm => ?_
    simp only [String.toList_append, List.mem_append] at hm
    rcases hm with (hm | hm) | hm
    · exact absurd (List.all_eq_true.1 ht _ hm) (by decide)
    · exact absurd hm (by decide)
    · exact Script.notMem_of_isIdentifier hidentifier (by decide) hm
  · rw [String.append_assoc, String.append_assoc]
    refine (Needle.Avoids.preceded ?_ ht)
    rw [← String.append_assoc]
    exact (h.preceded (by decide)).followed (by decide)

section Dialects

variable {modules lowers : Bool}

lemma careful_html : html.Careful n true where
  void := .inl rfl
  writes a ha := by
    cases a with
    | event name handler => exact avoids_escapedPair (by decide) ha.2.1 ha.2.2
    | binding name expression => exact avoids_escapedPair (by decide) (ha.2.1 rfl) ha.2.2
    | flag name => exact ha
    | number name x => exact avoids_static ha (.inr (avoids_number _ (.inr rfl) x).1)
    | text name value => exact avoids_static ha.1 ha.2
  moduleClass _ h := by cases h
  text s h := Needle.isEntity_content.avoids h
  textBinding _ _ := Needle.avoids_nil
  contentBinding write h e he := by
    cases h
    exact avoids_escapedPair (by decide)
      (Needle.avoids_of_notMem_slash (by decide +kernel : '/' ∉ (lower "text").toList)) (.inr he)

lemma careful_vue : (vue modules).Careful n lowers where
  void := .inr rfl
  writes a ha := by
    cases a with
    | event name handler => exact avoids_escapedPair (by decide) ha.2.1 ha.2.2
    | binding name expression => exact avoids_escapedPair (by decide) ha.1 ha.2.2
    | flag name => exact ha
    | number name x => exact avoids_escapedPair (by decide) ha (.inr (avoids_number _ (.inl rfl) x).1)
    | text name value => exact avoids_static ha.1 ha.2
  moduleClass write h c others hc hothers := by
    have hclass : n.Avoids "class".toList := Needle.avoids_of_notMem_slash (by decide)
    have hmember := avoids_classMember (t := "$style") (by decide) hc
    cases modules with
    | false => cases h
    | true =>
      cases h
      rw [vueModuleClass]
      split_ifs
      · exact avoids_escapedPair (by decide) hclass hmember
      · refine avoids_escapedPair (by decide) hclass ?_
        by_cases hhead : n.head = '<'
        · exact .inl hhead
        · exact .inr ((((hmember.resolve_left hhead).preceded (by decide)).joined (by decide)
            ((avoids_joinSpaces hothers).resolve_left hhead)).followed (by decide))
  text s h := Needle.isEntity_braced.avoids h
  textBinding _ h := avoids_inDoubleBraces h
  contentBinding _ h := by cases h

lemma careful_angular {selectorPrefix : String} : (angular selectorPrefix).Careful n lowers where
  void := .inl rfl
  writes a ha := by
    cases a with
    | event name handler =>
      refine avoids_quotedPair ?_ (Needle.isEntity_attribute.avoids (ha.2.2.imp_right fun h => ?_))
      · exact (ha.2.1.preceded (by decide)).followed (by decide)
      · rw [angularHandler]
        split_ifs
        · exact h.followed (by decide)
        · exact h
    | binding name expression =>
      exact avoids_quotedPair ((ha.1.preceded (by decide)).followed (by decide))
        (Needle.isEntity_attribute.avoids ha.2.2)
    | flag name => exact ha
    | number name x =>
      exact avoids_quotedPair ((Needle.Avoids.preceded ha (by decide)).followed (by decide))
        (Needle.isEntity_attribute.avoids (.inr (avoids_number _ (.inl rfl) x).1))
    | text name value => exact avoids_static ha.1 ha.2
  moduleClass _ h := by cases h
  text s h := Needle.isEntity_braced.avoids h
  textBinding _ h := avoids_inDoubleBraces h
  contentBinding _ h := by cases h

lemma avoids_reactName (h : n.Avoids name.toList) : n.Avoids (reactName name).toList := by
  rw [reactName]
  cases hname : componentAttributes.lookup name with
  | none => exact h
  | some other =>
    have hplain : ∀ e ∈ componentAttributes, '/' ∉ e.2.toList := by decide
    exact Needle.avoids_of_notMem_slash (hplain _ (Table.mem_of_get? hname))

lemma avoids_reactBinding {expression : String} (hname : n.Avoids name.toList)
    (h : n.Avoids expression.toList) : n.Avoids (reactBinding name expression).toList :=
  (avoids_reactName hname).joined (by decide) (avoids_inBraces h)

/-- Component markup does not escape expressions. -/
lemma careful_react (hn : n.head ≠ '<') : (react modules).Careful n lowers where
  void := .inr rfl
  writes a ha := by
    cases a with
    | event name handler =>
      exact (ha.1.preceded (o := "on") (by decide)).joined (by decide)
        (avoids_inBraces (ha.2.2.resolve_left hn))
    | binding name expression => exact avoids_reactBinding ha.1 (ha.2.2.resolve_left hn)
    | flag name => exact avoids_reactName ha
    | number name x => exact avoids_reactBinding ha (avoids_number _ (.inl rfl) x).2
    | text name value => exact avoids_static (avoids_reactName ha.1) ha.2
  moduleClass write h c others hc hothers := by
    have hmember := (avoids_classMember (t := "styles") (by decide) hc).resolve_left hn
    cases modules with
    | false => cases h
    | true =>
      cases h
      rw [reactModuleClass]
      split_ifs
      · exact (avoids_inBraces hmember).preceded (by decide)
      · refine Needle.Avoids.preceded (avoids_inBraces ?_) (by decide)
        exact (((avoids_inBraces hmember).preceded (by decide)).joined (by decide)
          ((avoids_joinSpaces hothers).resolve_left hn)).followed (by decide)
  text s h := Needle.isEntity_braced.avoids h
  textBinding _ h := avoids_inBraces h
  contentBinding _ h := by cases h

end Dialects

/-- The names in a node avoid the needle, and its values do so unless they are escaped against it. -/
structure Mild (n : Needle) (lowers : Bool) (r : Record) (styleClass : Option String) : Prop where
  names : ∀ e ∈ r.props, n.Avoids e.1.toList ∧ (lowers = true → n.Avoids (lower e.1).toList)
  values : n.head = '<' ∨ ∀ e ∈ r.props, e.2.Avoids n
  content : n.head = '<' ∨ r.content.Avoids n
  expression : ∀ e, bindingExpression r.content = some e → n.Avoids e.toList
  styleClass : ∀ c ∈ styleClass, n.Escapable c.toList

lemma escapable_staticClasses (h : n.head = '<' ∨ ∀ e ∈ r.props, e.2.Avoids n) :
    ∀ c ∈ staticClasses r.props, n.Escapable c.toList := by
  intro c hc
  refine h.imp_right fun h => ?_
  obtain ⟨key, -, hc⟩ := List.mem_flatMap.1 hc
  split at hc
  · rename_i s hs
    obtain ⟨field, hfield, rfl⟩ := List.mem_map.1 hc
    rw [String.toList_ofList]
    exact (Json.avoids_str.1 (h _ (Table.mem_of_get? hs))).of_isInfix (mem_runsOutside hfield).2.2
  · cases hc

variable {lowers : Bool}

lemma avoids_attributes (hd : d.Careful n lowers) (h : Mild n lowers r styleClass) :
    ∀ a ∈ d.attributes r styleClass, n.Avoids a.toList := by
  have hothers := escapable_staticClasses h.values
  have hclasses : ∀ c ∈ styleClass.toList ++ staticClasses r.props, n.Escapable c.toList := by
    intro c hc
    rcases List.mem_append.1 hc with hc | hc
    · exact h.styleClass c (Option.mem_toList.1 hc)
    · exact hothers c hc
  have hclassName : n.Avoids "class".toList := Needle.avoids_of_notMem_slash (by decide)
  intro a ha
  simp only [attributes, List.mem_append, Option.mem_toList, or_assoc] at ha
  rcases ha with ha | ha | ha
  · rw [classAttribute.eq_def] at ha
    split at ha
    · rename_i write c hwrite
      cases ha
      exact hd.moduleClass _ hwrite c _ (h.styleClass c rfl) hothers
    · rw [Option.ite_none_left_eq_some] at ha
      cases ha.2
      exact hd.writes (.text "class" _) ⟨hclassName, avoids_joinSpaces hclasses⟩
  · obtain ⟨e, he, ha⟩ := List.mem_filterMap.1 ha
    rw [Option.ite_none_left_eq_some] at ha
    obtain ⟨ha, -⟩ := Option.filter_eq_some_iff.1 ha.2
    obtain ⟨written, hwritten, rfl⟩ := Option.map_eq_some_iff.1 ha
    obtain ⟨hname, hsmall⟩ := h.names e he
    exact hd.writes _ (spared_ofValue hname hsmall (h.values.imp_right fun h => h e he) hwritten)
  · rw [contentAttribute.eq_def] at ha
    split at ha
    · rename_i write expression hwrite hexpression
      cases ha
      exact hd.contentBinding _ hwrite _ (h.expression _ hexpression)
    · cases ha

lemma avoids_content (hd : d.Careful n lowers) (h : Mild n lowers r styleClass) :
    n.Avoids (d.content r.content).toList := by
  rw [content]
  split
  · rename_i expression hexpression
    exact hd.textBinding _ (h.expression _ hexpression)
  · exact hd.text _ (h.content.imp_right Json.Avoids.display)

lemma Careful.spares (hd : d.Careful n lowers) (h : Mild n lowers r styleClass)
    (hstart : n.Avoids ("<" ++ d.tagName r).toList) (hend : n.Avoids ("</" ++ d.tagName r).toList) :
    d.Spares n r styleClass where
  void := hd.void
  startTag := hstart
  endTag := hend
  attributes := avoids_attributes hd h
  content := avoids_content hd h

end Dialect

end ViewWriter.Markup
