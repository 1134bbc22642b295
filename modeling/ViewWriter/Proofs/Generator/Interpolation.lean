import ViewWriter.Proofs.Analysis.Styles
import ViewWriter.Proofs.Generator.Subjects
import ViewWriter.Proofs.Markup.Escaping
import ViewWriter.Proofs.Markup.ReadBack
import ViewWriter.Proofs.Markup.Sparing
import ViewWriter.Proofs.Name.Characters
import ViewWriter.Proofs.Text.Doubled

/-! Interpolations in markup. Two opening braces in a row begin an expression, in attributes as in text. The
markup of a tree of texts has them if and only if a text of some node has them that is written with its
braces: a tag, a class, or the name or the value of a property. Contents are written without. -/

namespace ViewWriter.Markup

open ViewWriter.Text ViewWriter.Schema

/-- A text in which an expression begins. -/
def Interpolates (s : String) : Prop := Doubles '\x7b' s.toList

instance : DecidablePred Interpolates := fun s => inferInstanceAs (Decidable (Doubles _ s.toList))

/-- A node whose values are texts. -/
structure IsLiteral (r : Record) : Prop where
  props : ∀ e ∈ r.props, ∃ s, e.2 = .str s
  content : r.content = .null ∨ ∃ s, r.content = .str s

/-- The texts of a node that are written with their braces. -/
def bareTexts (selectorPrefix : String) (styleClass : Option String) (r : Record) : List String :=
  (if r.isCustom then selectorPrefix else r.type) ::
    (styleClass.toList ++ staticClasses r.props ++
      (r.props.filter isShown).flatMap fun e => [e.1, e.2.display])

section Pieces

variable {a b gap name value : String}

lemma not_interpolates (h : '\x7b' ∉ a.toList) : ¬ Interpolates a := not_doubles_of_notMem h

lemma interpolates_plain_append (h : '\x7b' ∉ a.toList) : Interpolates (a ++ b) ↔ Interpolates b := by
  rw [Interpolates, String.toList_append]
  exact doubles_plain_append h

lemma interpolates_append_plain (h : '\x7b' ∉ b.toList) : Interpolates (a ++ b) ↔ Interpolates a := by
  rw [Interpolates, String.toList_append]
  exact doubles_append_plain h

lemma interpolates_gap (h : '\x7b' ∉ gap.toList) (hne : gap.toList ≠ []) :
    Interpolates (a ++ gap ++ b) ↔ Interpolates a ∨ Interpolates b := by
  rw [Interpolates, String.toList_append, String.toList_append, List.append_assoc]
  exact doubles_append_gap h hne

lemma interpolates_join {sep : Char} (h : sep ≠ '\x7b') (pieces : List String) :
    Interpolates (join (String.singleton sep) pieces) ↔ ∃ piece ∈ pieces, Interpolates piece := by
  rw [Interpolates, join, String.toList_ofList, String.toList_singleton, doubles_joinWith h]
  simp [Interpolates]

lemma interpolates_spaced {pieces : List String} :
    Interpolates (a ++ concat (pieces.map fun p => " " ++ p)) ↔
      Interpolates a ∨ ∃ p ∈ pieces, Interpolates p := by
  induction pieces generalizing a with
  | nil => simp [concat, join, joinWith]
  | cons p rest ih =>
    have hcons : a ++ concat ((p :: rest).map fun p => " " ++ p) =
        a ++ " " ++ p ++ concat (rest.map fun p => " " ++ p) :=
      String.toList_inj.1 (by simp [toList_concat])
    rw [hcons, ih, interpolates_gap (by decide) (by decide)]
    simp [or_assoc]

lemma interpolates_quotedPair :
    Interpolates (Dialect.quotedPair name value) ↔ Interpolates name ∨ Interpolates value := by
  rw [Dialect.quotedPair, interpolates_append_plain (by decide), interpolates_gap (by decide) (by decide)]

lemma brace_notMem_of_named (h : Name.IsNamed a) : '\x7b' ∉ a.toList := fun hm =>
  absurd (h _ hm) (by decide)

/-- References have no braces in them, so that braces stay where they are if they are not replaced. -/
lemma interpolates_escaped {table : List (Char × List Char)} (hkept : '\x7b' ∉ table.map Prod.fst)
    (hplain : ∀ e ∈ table, e.2 ≠ [] ∧ '\x7b' ∉ e.2) :
    Interpolates (mapChars (inPlaceOf table) a) ↔ Interpolates a := by
  rw [Interpolates, mapChars, String.toList_ofList]
  refine doubles_flatMap (inPlaceOf_of_notMem hkept) fun d hd => ?_
  rcases inPlaceOf_cases table d with ⟨hself, -⟩ | hmem
  · rw [hself]
    simp [Ne.symm hd]
  · exact hplain _ hmem

lemma interpolates_escapeQuoted : Interpolates (escapeQuoted a) ↔ Interpolates a := by
  rw [escapeQuoted, quotedEntity_eq]
  exact interpolates_escaped (by decide) (by decide)

lemma interpolates_escapeAttribute : Interpolates (escapeAttribute a) ↔ Interpolates a := by
  rw [escapeAttribute, attributeEntity_eq]
  exact interpolates_escaped (by decide) (by decide)

lemma brace_notMem_escapeBraced (s : String) : '\x7b' ∉ (escapeBraced s).toList := by
  have hescaped : Encodes bracedTable "\x7b" s (mapChars (inPlaceOf bracedTable) s) :=
    writesReferences_braced.encodes (by decide) (by decide) s
  rw [escapeBraced, bracedEntity_eq]
  exact hescaped.absent _ (by decide)

end Pieces

namespace Dialect

variable (selectorPrefix : String) {r : Record} {styleClass : Option String} {name s : String}

lemma interpolates_tagName : Interpolates ((angular selectorPrefix).tagName r) ↔
    Interpolates (if r.isCustom then selectorPrefix else r.type) := by
  change Interpolates
    (if r.isCustom then selectorPrefix ++ "-" ++ Name.kebab r.type else r.type) ↔ _
  split_ifs
  · have hname : '\x7b' ∉ ("-" ++ Name.kebab r.type).toList :=
      brace_notMem_of_named (Name.IsNamed.append (by decide) (Name.isNamed_kebab r.type))
    rw [String.append_assoc, interpolates_append_plain hname]
  · rfl

lemma interpolates_handler : Interpolates (angularHandler s) ↔ Interpolates s := by
  rw [angularHandler]
  split_ifs
  · exact interpolates_append_plain (by decide)
  · rfl

/-- The name of an event, and the property that it is the event of, have letters only. -/
lemma brace_notMem_event {event : String} (h : eventName? name = some event) :
    '\x7b' ∉ name.toList ∧ '\x7b' ∉ (lower event).toList := by
  have hletters := letters_of_eventName h
  have hbrace : '\x7b' ∉ event.toList := fun hm => absurd (hletters _ hm) (by decide)
  have hname : name.toList = 'o' :: 'n' :: event.toList := by
    unfold eventName? at h
    split at h
    · rename_i c rest hname
      rw [Option.ite_none_right_eq_some] at h
      cases h.2
      rw [hname, String.toList_ofList]
    · cases h
  refine ⟨by simp [hname, hbrace], fun hm => ?_⟩
  rw [lower, String.toList_ofList, lowerChars, lowerAfter_letters hletters] at hm
  obtain ⟨c, hc, hlower⟩ := List.mem_map.1 hm
  have hletter : isAsciiAlphanumeric c = true := by simp [isAsciiAlphanumeric, hletters c hc]
  exact Name.of_alphanumeric (P := fun c => asciiLower c ≠ '\x7b') (by decide) hletter hlower

lemma exists_attribute (name s : String) : ∃ a, Attribute.ofValue? name (.str s) = some a ∧
    (angular selectorPrefix).writeAttribute a ≠ "" ∧
    (Interpolates ((angular selectorPrefix).writeAttribute a) ↔ Interpolates name ∨ Interpolates s) := by
  cases hevent : eventName? name with
  | none =>
    refine ⟨.text name s, ofValue?_str hevent, quotedPair_ne_empty _ _, ?_⟩
    exact interpolates_quotedPair.trans (or_congr_right interpolates_escapeQuoted)
  | some event =>
    obtain ⟨hname, hlower⟩ := brace_notMem_event hevent
    have hwritten : '\x7b' ∉ ("(" ++ lower event ++ ")").toList := by simp [hlower]
    refine ⟨.event event s, ?_, quotedPair_ne_empty _ _, ?_⟩
    · simp [Attribute.ofValue?, bindingExpression, hevent]
    · refine interpolates_quotedPair.trans ?_
      rw [interpolates_escapeAttribute, interpolates_handler]
      simp [not_interpolates hname, not_interpolates hwritten]

lemma interpolates_classAttribute {others : List String} :
    (∃ a ∈ (angular selectorPrefix).classAttribute styleClass others, Interpolates a) ↔
      ∃ c ∈ styleClass.toList ++ others, Interpolates c := by
  have hattribute : (angular selectorPrefix).classAttribute styleClass others =
      if (styleClass.toList ++ others).isEmpty then none
      else some (quotedPair "class" (escapeQuoted (join " " (styleClass.toList ++ others)))) := rfl
  rw [hattribute]
  split_ifs with hempty
  · simp [List.isEmpty_iff.1 hempty]
  · have hjoin := interpolates_join (by decide : ' ' ≠ '\x7b') (styleClass.toList ++ others)
    simp only [Option.mem_some_iff, exists_eq_left', interpolates_quotedPair, interpolates_escapeQuoted]
    exact (or_iff_right (not_interpolates (by decide))).trans hjoin

lemma interpolates_propAttributes (h : ∀ e ∈ r.props, ∃ s, e.2 = .str s) :
    (∃ a ∈ (angular selectorPrefix).propAttributes r.props, Interpolates a) ↔
      ∃ e ∈ r.props.filter isShown, Interpolates e.1 ∨ Interpolates e.2.display := by
  constructor
  · rintro ⟨a, ha, hbraces⟩
    obtain ⟨⟨name, v⟩, he, hwritten⟩ := List.mem_filterMap.1 ha
    obtain ⟨s, rfl⟩ : ∃ s, v = .str s := h _ he
    obtain ⟨written, hattribute, -, hiff⟩ := exists_attribute selectorPrefix name s
    rw [Option.ite_none_left_eq_some, hattribute] at hwritten
    obtain ⟨hshown, hwritten⟩ := hwritten
    obtain ⟨hwritten, -⟩ := Option.filter_eq_some_iff.1 hwritten
    cases hwritten
    exact ⟨_, List.mem_filter.2 ⟨he, by simpa [isShown] using hshown⟩, hiff.1 hbraces⟩
  · rintro ⟨⟨name, v⟩, he, hbraces⟩
    obtain ⟨he, hshown⟩ := List.mem_filter.1 he
    obtain ⟨s, rfl⟩ : ∃ s, v = .str s := h _ he
    obtain ⟨written, hattribute, hne, hiff⟩ := exists_attribute selectorPrefix name s
    refine ⟨_, List.mem_filterMap.2 ⟨_, he, ?_⟩, hiff.2 hbraces⟩
    rw [Option.ite_none_left_eq_some, hattribute]
    exact ⟨by simpa [isShown] using hshown, Option.filter_eq_some_iff.2 ⟨rfl, by simpa using hne⟩⟩

lemma interpolates_attributes (h : IsLiteral r) :
    (∃ a ∈ (angular selectorPrefix).attributes r styleClass, Interpolates a) ↔
      (∃ c ∈ styleClass.toList ++ staticClasses r.props, Interpolates c) ∨
        ∃ e ∈ r.props.filter isShown, Interpolates e.1 ∨ Interpolates e.2.display := by
  have hcontent : (angular selectorPrefix).contentAttribute r.content = none := rfl
  rw [← interpolates_classAttribute selectorPrefix,
    ← interpolates_propAttributes selectorPrefix h.props]
  simp only [attributes, hcontent, Option.toList_none, List.append_nil, List.mem_append,
    Option.mem_toList, Option.mem_def, or_and_right, exists_or]

lemma interpolates_opening (h : IsLiteral r) :
    Interpolates ((angular selectorPrefix).opening r styleClass) ↔
      ∃ text ∈ bareTexts selectorPrefix styleClass r, Interpolates text := by
  have hshown : (∃ e ∈ r.props.filter isShown, Interpolates e.1 ∨ Interpolates e.2.display) ↔
      ∃ text ∈ (r.props.filter isShown).flatMap fun e => [e.1, e.2.display], Interpolates text := by
    simp only [List.mem_flatMap, List.mem_cons, List.not_mem_nil, or_false]
    constructor
    · rintro ⟨e, he, hname | hvalue⟩
      · exact ⟨_, ⟨e, he, .inl rfl⟩, hname⟩
      · exact ⟨_, ⟨e, he, .inr rfl⟩, hvalue⟩
    · rintro ⟨text, ⟨e, he, rfl | rfl⟩, htext⟩
      · exact ⟨e, he, .inl htext⟩
      · exact ⟨e, he, .inr htext⟩
  rw [opening, interpolates_spaced, interpolates_plain_append (by decide), interpolates_tagName,
    interpolates_attributes selectorPrefix h, hshown, bareTexts]
  simp only [List.mem_cons, List.mem_append, or_and_right, exists_or, exists_eq_left]

lemma tag_of_opening (h : Interpolates ((angular selectorPrefix).tagName r)) :
    Interpolates ((angular selectorPrefix).opening r styleClass) := by
  rw [opening, interpolates_spaced, interpolates_plain_append (by decide)]
  exact .inl h

lemma brace_notMem_content (h : IsLiteral r) :
    '\x7b' ∉ ((angular selectorPrefix).content r.content).toList := by
  rcases h.content with hnull | ⟨s, hs⟩
  · rw [hnull]
    exact brace_notMem_escapeBraced _
  · rw [hs]
    exact brace_notMem_escapeBraced s

lemma interpolates_leaf (h : IsLiteral r) :
    Interpolates ((angular selectorPrefix).leaf r styleClass) ↔
      Interpolates ((angular selectorPrefix).opening r styleClass) := by
  have htag : Interpolates ((angular selectorPrefix).tagName r) →
      Interpolates ((angular selectorPrefix).opening r styleClass) := tag_of_opening selectorPrefix
  have hcontent := not_interpolates (brace_notMem_content selectorPrefix h)
  rw [leaf]
  split_ifs
  · rw [interpolates_append_plain (by decide), interpolates_gap (by decide) (by decide),
      interpolates_gap (by decide) (by decide), or_iff_left hcontent]
    exact or_iff_left_of_imp htag
  · exact interpolates_append_plain (by decide : '\x7b' ∉ ">".toList)
  · exact interpolates_append_plain (by decide)
  · rw [interpolates_append_plain (by decide), interpolates_gap (by decide) (by decide)]
    exact or_iff_left_of_imp htag

section Trees

variable {unit : String} {classes : Table String}

mutual

lemma interpolates_lines (t : Tree) {margin : String} (hunit : '\x7b' ∉ unit.toList)
    (hmargin : '\x7b' ∉ margin.toList) (h : ∀ r ∈ t.records, IsLiteral r) :
    (∃ l ∈ (angular selectorPrefix).lines unit classes margin t, Interpolates l) ↔
      ∃ r ∈ t.records,
        Interpolates ((angular selectorPrefix).opening r (styleClassOf classes r)) := by
  match t with
  | .node r [] =>
    have hr := h r List.mem_cons_self
    simp only [lines, Tree.records, Tree.recordsOf, List.mem_singleton, exists_eq_left,
      interpolates_plain_append hmargin, interpolates_leaf selectorPrefix hr]
  | .node r (c :: cs) =>
    have hinner : '\x7b' ∉ (margin ++ unit).toList := by
      rw [String.toList_append]
      exact notMem_append hmargin hunit
    have hbelow := interpolates_linesOf (c :: cs) hunit hinner
      fun r hr => h r (List.mem_cons_of_mem _ hr)
    have hfirst : Interpolates (margin ++ (angular selectorPrefix).opening r (styleClassOf classes r) ++
        ">") ↔ Interpolates ((angular selectorPrefix).opening r (styleClassOf classes r)) := by
      rw [interpolates_append_plain (by decide), interpolates_plain_append hmargin]
    have hlast : Interpolates (margin ++ "</" ++ (angular selectorPrefix).tagName r ++ ">") ↔
        Interpolates ((angular selectorPrefix).tagName r) := by
      rw [interpolates_append_plain (by decide), interpolates_gap (by decide) (by decide)]
      exact or_iff_right (not_interpolates hmargin)
    rw [lines, Tree.records]
    simp only [List.mem_append, List.mem_cons, List.not_mem_nil, or_false, or_and_right, exists_or,
      exists_eq_left, hfirst, hlast, hbelow]
    exact or_iff_left_of_imp fun htag => .inl (tag_of_opening selectorPrefix htag)

lemma interpolates_linesOf (ts : List Tree) {margin : String} (hunit : '\x7b' ∉ unit.toList)
    (hmargin : '\x7b' ∉ margin.toList) (h : ∀ r ∈ Tree.recordsOf ts, IsLiteral r) :
    (∃ l ∈ (angular selectorPrefix).linesOf unit classes margin ts, Interpolates l) ↔
      ∃ r ∈ Tree.recordsOf ts,
        Interpolates ((angular selectorPrefix).opening r (styleClassOf classes r)) := by
  match ts with
  | [] => simp [linesOf, Tree.recordsOf]
  | t :: rest =>
    have hfirst := interpolates_lines t hunit hmargin fun r hr => h r (List.mem_append_left _ hr)
    have hrest := interpolates_linesOf rest hunit hmargin fun r hr => h r (List.mem_append_right _ hr)
    simp only [linesOf, Tree.recordsOf, List.mem_append, or_and_right, exists_or, hfirst, hrest]

end

/-- The markup of a tree of texts begins an expression where a text does that is written bare. -/
lemma interpolates_render {t : Tree} (hunit : '\x7b' ∉ unit.toList)
    (h : ∀ r ∈ t.records, IsLiteral r) :
    Interpolates ((angular selectorPrefix).render unit classes t) ↔
      ∃ r ∈ t.records, ∃ text ∈ bareTexts selectorPrefix (styleClassOf classes r) r,
        Interpolates text := by
  have hlines : (∃ l ∈ (angular selectorPrefix).lines unit classes "" t, Interpolates l) ↔ _ :=
    interpolates_lines selectorPrefix t hunit (by decide) h
  refine (interpolates_join (by decide : '\n' ≠ '\x7b') _).trans (hlines.trans ?_)
  exact exists_congr fun r => and_congr_right fun hr => interpolates_opening selectorPrefix (h r hr)

end Trees

end Dialect

end ViewWriter.Markup

/-! Interpolations in the markup of views. Style classes have braces only where their prefix has. -/

namespace ViewWriter

open ViewWriter.Text ViewWriter.Schema ViewWriter.Analysis ViewWriter.Markup

/-- What the style class of a node begins with. -/
def Schema.Record.stylePrefix (config : Config) (r : Record) : Option String :=
  if r.style.isEmpty then none else config.stylePrefix.toOption.join

namespace Generator

variable {config : Config} {classes : Table String} {records : List Record} {node : Record}
  {className : String} {s : Subject} {o : Options} {v : View}

lemma interpolates_className (h : classNames config records = .ok classes) {id : String}
    (hget : classes.get? id = some className) :
    Interpolates className ↔ ∃ start ∈ config.stylePrefix.toOption.join, Interpolates start := by
  obtain ⟨start, type, id', hstart, hname⟩ := exists_class_of_get? h hget
  obtain ⟨own, hown, hclass⟩ := Name.exists_styleClass start type id'
  have hplain := brace_notMem_of_named hown
  have hbase : Interpolates (Name.styleClass start type id') ↔ ∃ p ∈ start, Interpolates p := by
    rw [hclass]
    cases start with
    | none => simpa using not_interpolates hplain
    | some p =>
      rw [Option.elim_some, String.append_assoc, interpolates_append_plain]
      · simp
      · rw [String.toList_append]
        exact notMem_append (by decide) hplain
  rw [hstart]
  obtain rfl | ⟨n, rfl⟩ := hname
  · exact hbase
  · have hnumber : '\x7b' ∉ (toString n).toList := fun hm => absurd (isNumeric_repr n _ hm) (by decide)
    rw [interpolates_append_plain hnumber, interpolates_append_plain (by decide)]
    exact hbase

lemma interpolates_styleClass (h : classNames config records = .ok classes)
    (hdistinct : (records.map (·.id)).Nodup) (hnode : node ∈ records) :
    (∃ c ∈ Dialect.styleClassOf classes node, Interpolates c) ↔
      ∃ start ∈ node.stylePrefix config, Interpolates start := by
  have hstyled := exists_styleClass_iff h hdistinct hnode
  rw [Record.stylePrefix]
  split_ifs with hempty
  · have hnone : Dialect.styleClassOf classes node = none :=
      Option.eq_none_iff_forall_ne_some.2 fun c hc => hstyled.1 ⟨c, hc⟩ (List.isEmpty_iff.1 hempty)
    simp [hnone]
  · obtain ⟨c, hc⟩ := hstyled.2 fun hnil => hempty (List.isEmpty_iff.2 hnil)
    rw [← interpolates_className h (Option.filter_eq_some_iff.1 hc).1]
    simp [hc]

/-- Where all values are texts, an expression begins in the markup if and only if one begins in a text that
is written with its braces: the type of a node, the selector of its component, its classes, or the name or
the value of a property. -/
theorem markup_interpolates_iff (hs : s.Standing) (hview : (ofFramework .angular config).view s o = .ok v) :
    ∃ t selectorPrefix, s.Shows t ∧ Target.Angular.selectorPrefix config = .ok selectorPrefix ∧
      ((∀ r ∈ t.records, IsLiteral r) → (Interpolates v.parts.markup ↔
        ∃ r ∈ t.records, ∃ text ∈ bareTexts selectorPrefix (r.stylePrefix config) r,
          Interpolates text)) := by
  obtain ⟨p, hp, rfl⟩ := map_eq_ok_iff.1 hview
  obtain ⟨t, d, unit, classes, ht, hd, hunit, hparts⟩ := exists_indentedParts hs hp
  obtain ⟨selectorPrefix, hselector, rfl⟩ := map_eq_ok_iff.1 hd
  refine ⟨t, selectorPrefix, ht, hselector, fun hliteral => ?_⟩
  have hmargin : '\x7b' ∉ unit.toList := fun hm =>
    absurd (Config.eq_space_of_indentUnit hunit _ hm) (by decide)
  have hmarkup : p.markup = (Dialect.angular selectorPrefix).render unit classes t := hparts.markup
  change Interpolates p.markup ↔ _
  rw [hmarkup, Dialect.interpolates_render selectorPrefix hmargin hliteral]
  refine exists_congr fun r => and_congr_right fun hr => ?_
  have hclass := interpolates_styleClass hparts.classNames hparts.distinct hr
  simp only [Option.mem_def] at hclass
  simp only [bareTexts, List.mem_cons, List.mem_append, Option.mem_toList, or_and_right, exists_or,
    hclass]
  rfl

/-- An element whose title is in two pairs of braces. -/
def titled : Tree := .node ⟨"a", "div", [("title", .str "\x7b\x7b x \x7d\x7d")], [], .null⟩ []

lemma isLiteral_titled : ∀ r ∈ titled.records, IsLiteral r := by
  intro r hr
  rw [titled, Tree.records, Tree.recordsOf, List.mem_singleton] at hr
  subst hr
  exact ⟨List.forall_mem_singleton.2 ⟨_, rfl⟩, .inl rfl⟩

lemma exists_titledView : ∃ v, (ofFramework .angular {}).view (.component (.tree titled)) {} = .ok v ∧
    v.parts.markup = "<div title=\"\x7b\x7b x \x7d\x7d\"></div>" := by
  have hcheck : (((ofFramework .angular {}).view (.component (.tree titled)) {}).toOption.any fun v =>
      v.parts.markup == "<div title=\"\x7b\x7b x \x7d\x7d\"></div>") = true := by decide +kernel
  obtain ⟨v, hview, hmarkup⟩ := (Option.any_eq_true _ _).1 hcheck
  exact ⟨v, toOption_eq_some_iff.1 hview, beq_iff_eq.1 hmarkup⟩

lemma markup_interpolates_iff_title :
    ∃ v, (ofFramework .angular {}).view (.component (.tree titled)) {} = .ok v ∧
      (Interpolates v.parts.markup ↔
        ∃ text ∈ ["div", "title", "\x7b\x7b x \x7d\x7d"], Interpolates text) := by
  obtain ⟨v, hview, -⟩ := exists_titledView
  have hs : Subject.Standing (.component (.tree titled)) := fun a ha => by cases ha
  obtain ⟨t, selectorPrefix, ht, -, hiff⟩ := markup_interpolates_iff hs hview
  obtain rfl := ht.of_toTree (show Source.toTree (.tree titled) = .ok titled from rfl)
  have hbare : bareTexts selectorPrefix (titled.record.stylePrefix {}) titled.record =
      ["div", "title", "\x7b\x7b x \x7d\x7d"] := rfl
  refine ⟨v, hview, (hiff isLiteral_titled).trans ?_⟩
  rw [← hbare]
  simp [titled, Tree.records, Tree.recordsOf, Tree.record]

/-- A title is taken for an expression, although every value is a text. -/
theorem title_interpolates : (∀ r ∈ titled.records, IsLiteral r) ∧
    ∃ v, (ofFramework .angular {}).view (.component (.tree titled)) {} = .ok v ∧
      Interpolates v.parts.markup := by
  obtain ⟨v, hview, hmarkup⟩ := exists_titledView
  exact ⟨isLiteral_titled, v, hview, by rw [hmarkup]; decide⟩

end Generator

end ViewWriter
