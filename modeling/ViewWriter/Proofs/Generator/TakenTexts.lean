import ViewWriter.Proofs.Generator.Readings
import ViewWriter.Proofs.Generator.Subjects
import ViewWriter.Proofs.Markup.Sparing
import ViewWriter.Proofs.Text.Needles

/-! What a view takes over of its subject and of its settings. -/

namespace ViewWriter

open ViewWriter.Text ViewWriter.Schema ViewWriter.Analysis ViewWriter.Template ViewWriter.Markup

/-- The texts of a tree and of what is asked for that a main file may take over. -/
def givenTexts (t : Tree) (o : Options) (config : Config) : List String :=
  t.records.flatMap (fun node => node.type :: ((Json.obj node.props).texts ++ node.content.texts)) ++
    (o.pageTitle.texts ++ o.description.texts ++ config.classPrefix.texts ++ config.custom.texts)

/-- What a main file may take over of a node avoids a needle. -/
structure Schema.Record.Avoids (n : Needle) (r : Record) : Prop where
  type : n.Avoids r.type.toList
  props : (Json.obj r.props).Avoids n
  content : r.content.Avoids n

/-- What a main file may take over of options and settings avoids a needle. -/
structure Options.Avoids (n : Needle) (o : Options) (config : Config) : Prop where
  pageTitle : o.pageTitle.Avoids n
  description : o.description.Avoids n
  classPrefix : config.classPrefix.Avoids n
  custom : config.custom.Avoids n

lemma avoids_given {n : Needle} {t : Tree} {o : Options} {config : Config}
    (h : ∀ text ∈ givenTexts t o config, n.Avoids text.toList) :
    (∀ r ∈ t.records, r.Avoids n) ∧ o.Avoids n config := by
  simp only [givenTexts, List.forall_mem_append, List.mem_flatMap, forall_exists_index, and_imp,
    List.append_assoc] at h
  obtain ⟨hrecords, hpageTitle, hdescription, hclassPrefix, hcustom⟩ := h
  refine ⟨fun r hr => ?_, ⟨hpageTitle, hdescription, hclassPrefix, hcustom⟩⟩
  have hr : ∀ text ∈ r.type :: ((Json.obj r.props).texts ++ r.content.texts), n.Avoids text.toList :=
    fun text htext => hrecords text r hr htext
  simp only [List.forall_mem_cons, List.forall_mem_append] at hr
  exact ⟨hr.1, hr.2.1, hr.2.2⟩

section Settings

variable {n : Needle} {config : Config}

lemma leads_unit {unit : String} (h : config.indentUnit = .ok unit) : n.Leads unit.toList := by
  rw [Config.indentUnit] at h
  split at h
  · split_ifs at h
    cases h
    rw [String.toList_ofList]
    exact Needle.leads_spaces _
  · rename_i b _
    cases h
    refine Needle.leads_of_plain (List.all_eq_true.1 ?_)
    cases b <;> decide
  · cases h

lemma avoids_ofEntries {es : Table Json} (h : ∀ e ∈ es, e.2.Avoids n) :
    ∀ e ∈ Table.ofEntries es, e.2.Avoids n := by
  intro e he
  rcases Table.mem_of_mem_merge he with he | he
  · cases he
  · exact h e he

lemma avoids_pairValue {v : Json} {e : String × Json} (hv : v.Avoids n) (h : v.pair = .ok e) :
    e.2.Avoids n := by
  obtain ⟨items, hitems, h⟩ := bind_eq_ok_iff.1 h
  have helements := hv.elements hitems
  split at h
  · obtain ⟨key, -, h⟩ := bind_eq_ok_iff.1 h
    cases h
    exact helements _ (by simp)
  · cases h

lemma avoids_table {v : Json} {fields : Table Json} (hv : v.Avoids n) (h : v.table = .ok fields) :
    ∀ e ∈ fields, e.2.Avoids n := by
  have hpairs (h : (do
      let pairs ← (← v.elements).mapM Json.pair
      return Table.ofEntries pairs) = Except.ok fields) : ∀ e ∈ fields, e.2.Avoids n := by
    obtain ⟨items, hitems, h⟩ := bind_eq_ok_iff.1 h
    obtain ⟨pairs, hpairs, h⟩ := bind_eq_ok_iff.1 h
    cases h
    refine avoids_ofEntries fun e he => ?_
    obtain ⟨item, hitem, hpair⟩ := exists_of_mem_right (mapM_eq_ok_iff.1 hpairs) he
    exact avoids_pairValue (hv.elements hitems item hitem) hpair
  cases v with
  | obj members =>
    cases h
    exact fun e he => (Json.avoids_obj.1 hv e he).2
  | _ => exact hpairs h

lemma avoids_language {v w : Json} {fields : Table Json} (hv : v.Avoids n)
    (h : v.table = .ok fields) (hw : Leads (.obj fields) ["lang"] w) : w.Avoids n :=
  avoids_table hv h _ (Filling.leads_single hw)

lemma careful_dialect {f : Framework} {o : Options} {d : Dialect} (hf : f = .react → n.head ≠ '<')
    (h : (Target.ofFramework f).dialect config o = .ok d) : d.Careful n (f == .html) := by
  cases f with
  | react =>
    cases h
    exact Dialect.careful_react (hf rfl)
  | vue =>
    cases h
    exact Dialect.careful_vue
  | angular =>
    obtain ⟨start, -, rfl⟩ := map_eq_ok_iff.1 h
    exact Dialect.careful_angular
  | html =>
    cases h
    exact Dialect.careful_html

lemma avoids_selectorPrefix {start : String} (h : config.custom.Avoids n)
    (hstart : Target.Angular.selectorPrefix config = .ok start) : n.Avoids start.toList := by
  obtain ⟨v, hv, rfl⟩ := map_eq_ok_iff.1 hstart
  suffices hmember : v.Avoids n from hmember.display
  rw [Config.customMember] at hv
  split at hv
  · rename_i fields hfields
    cases hv
    cases hmember : Table.get? fields "selector_prefix" with
    | none => exact Json.avoids_str.2 (Needle.avoids_of_notMem_slash (by decide))
    | some w =>
      rw [hfields] at h
      exact h.get? hmember
  · cases hv

lemma classPrefix_of_stylePrefix {q : String} (h : config.stylePrefix = .ok (some q)) :
    config.classPrefix = .str q := by
  rw [Config.stylePrefix] at h
  split_ifs at h
  · cases h
  · split at h
    · rename_i text htext
      cases h
      exact htext
    · cases h

/-- A class has neither points nor slashes after what was set in front of it. -/
lemma exists_className {records : List Record} {classes : Table String} {id c : String}
    (h : classNames config records = .ok classes) (hc : classes.get? id = some c) :
    ∃ own : List Char, '.' ∉ own ∧ '/' ∉ own ∧
      (c.toList = own ∨ ∃ q, config.classPrefix = .str q ∧ c.toList = q.toList ++ '-' :: own) := by
  obtain ⟨p, type, id', hp, hname⟩ := exists_class_of_get? h hc
  obtain ⟨own, hown, hclass⟩ := Name.exists_styleClass p type id'
  obtain ⟨more, hpoint, hslash, hmore⟩ : ∃ more : List Char, '.' ∉ more ∧ '/' ∉ more ∧
      c.toList = (Name.styleClass p type id').toList ++ more := by
    obtain rfl | ⟨k, rfl⟩ := hname
    · exact ⟨[], by simp, by simp, by simp⟩
    · have hfigure : ∀ d ∈ k.repr.toList, isFigure d = true := by
        rw [Nat.repr_eq_ofList_toDigits, String.toList_ofList]
        exact isFigure_toDigits (by decide)
      refine ⟨'-' :: k.repr.toList, fun hm => ?_, fun hm => ?_, by simp [toString]⟩
      · exact absurd (hfigure _ ((List.mem_cons.1 hm).resolve_left (by decide))) (by decide)
      · exact absurd (hfigure _ ((List.mem_cons.1 hm).resolve_left (by decide))) (by decide)
  refine ⟨own.toList ++ more, ?_, ?_, ?_⟩
  · exact notMem_append hown.point_notMem hpoint
  · exact notMem_append hown.slash_notMem hslash
  · rw [hmore, hclass]
    cases p with
    | none => exact .inl rfl
    | some q => exact .inr ⟨q, classPrefix_of_stylePrefix hp, by simp⟩

end Settings

/-! References to stylesheets. They have points, which are neither in the names of classes nor in those
of elements but for what was set in front of these. -/

section Stylesheets

variable {base : List Char} {hbase : ∀ c ∈ base, isStop c = false} {f : Framework} {config : Config}
  {o : Options} {d : Dialect} {r : Record} {classes : Table String} {t : Tree}

lemma avoids_className (h : config.classPrefix.Avoids (.stylesheet base hbase))
    {records : List Record} (hclasses : classNames config records = .ok classes) {id c : String}
    (hc : classes.get? id = some c) : (Needle.stylesheet base hbase).Avoids c.toList := by
  obtain ⟨own, hpoint, hslash, hown | ⟨q, hq, hown⟩⟩ := exists_className hclasses hc
  · rw [hown]
    exact Needle.avoids_of_notMem_slash hslash
  · rw [hq, Json.avoids_str] at h
    rw [hown]
    exact h.hyphened ⟨hpoint, hslash⟩

lemma avoids_prefixed {start name : String} (hstart : (Needle.stylesheet base hbase).Avoids start.toList)
    (hname : Name.IsNamed name) :
    (Needle.stylesheet base hbase).Avoids (start ++ "-" ++ name).toList := by
  rw [String.toList_append, String.toList_append, List.append_assoc]
  exact hstart.hyphened ⟨hname.point_notMem, hname.slash_notMem⟩

lemma avoids_tagName (hd : (Target.ofFramework f).dialect config o = .ok d)
    (hcustom : config.custom.Avoids (.stylesheet base hbase))
    (htype : (Needle.stylesheet base hbase).Avoids r.type.toList) :
    (Needle.stylesheet base hbase).Avoids (d.tagName r).toList := by
  have hkebab := Name.isNamed_kebab r.type
  cases f with
  | react =>
    cases hd
    exact htype
  | vue =>
    cases hd
    exact htype
  | angular =>
    obtain ⟨start, hstart, rfl⟩ := map_eq_ok_iff.1 hd
    dsimp only [Dialect.angular]
    split_ifs
    · exact avoids_prefixed (avoids_selectorPrefix hcustom hstart) hkebab
    · exact htype
  | html =>
    cases hd
    dsimp only [Dialect.html, Dialect.htmlTagName]
    split_ifs
    · exact hkebab.avoids _
    · exact (Name.IsNamed.append (by decide) hkebab).avoids _
    · exact htype

lemma spares_stylesheet (hd : (Target.ofFramework f).dialect config o = .ok d)
    (hclasses : classNames config t.records = .ok classes)
    (hsettings : o.Avoids (.stylesheet base hbase) config) (hr : r.Avoids (.stylesheet base hbase))
    (hlower : f = .html → ∀ e ∈ r.props, (Needle.stylesheet base hbase).Avoids (lower e.1).toList) :
    d.Spares (.stylesheet base hbase) r (Dialect.styleClassOf classes r) := by
  have hangle : '<' ≠ (Needle.stylesheet base hbase).head := by
    change '<' ≠ '.'
    decide
  have hslash : '/' ≠ (Needle.stylesheet base hbase).head := by
    change '/' ≠ '.'
    decide
  have htag := avoids_tagName hd hsettings.custom hr.type
  refine (careful_dialect (fun _ => hangle.symm) hd).spares ?_ ?_ ?_
  · exact
      { names := fun e he => ⟨(Json.avoids_obj.1 hr.props e he).1,
          fun hhtml => hlower (beq_iff_eq.1 hhtml) e he⟩
        values := .inr fun e he => (Json.avoids_obj.1 hr.props e he).2
        content := .inr hr.content
        expression := fun e he => avoids_bindingExpression hr.content he
        styleClass := fun c hc => .inr (avoids_className hsettings.classPrefix hclasses
          (Option.filter_eq_some_iff.1 hc).1) }
  · rw [String.toList_append]
    exact htag.cons hangle
  · rw [String.toList_append]
    exact (htag.cons hslash).cons hangle

end Stylesheets

end ViewWriter
