import ViewWriter.Proofs.Generator.Computing
import ViewWriter.Proofs.Generator.TakenTexts
import ViewWriter.Proofs.Script.Occurrences
import ViewWriter.Proofs.Template.Junctions

/-! Scripts that are closed once. Plain markup and single-file components have their script between
tags. What they escape cannot close it, and what they write as it is closes it wherever it has a tag that
does. -/

namespace ViewWriter

open ViewWriter.Text ViewWriter.Schema ViewWriter.Analysis ViewWriter.Template ViewWriter.Markup

/-- The frameworks with the script of a view between tags in its main file. -/
inductive EmbedsScript : Framework → Prop
  | vue : EmbedsScript .vue
  | html : EmbedsScript .html

/-- The texts that a main file takes over of a view as they are, but for its markup. Where types are
written they come after an angle bracket. -/
def View.rawTexts (v : View) (f : Framework) : List String :=
  v.files.styles :: (v.parts.state.flatMap (fun x => x.initial.texts ++ x.type.texts) ++
    v.parts.effects.flatMap (fun e => e.body :: (e.cleanup.texts ++ e.deps)) ++
    v.parts.functions.flatMap (fun x => x.body :: x.params) ++ v.parts.imports.map (·.source) ++
    match f with
    | .vue =>
      v.parts.props.flatMap (fun p => p.type.texts ++ (p.default.elim [] Json.texts)) ++
        v.description.texts ++ v.pageTitle.texts ++
        if v.typescript.isGiven then v.parts.state.map fun x => "<" ++ stringify x.type else []
    | _ => if v.page then (Json.member v.parts.custom "lang").texts else [])

/-- The texts that markup takes over of a node as they are: its tags, the names of its attributes and
the expression that it shows. -/
def Schema.Record.rawTexts (r : Record) (f : Framework) : List String :=
  let tag := match f with
    | .html => Dialect.htmlTagName r
    | _ => r.type
  ("<" ++ tag) :: ("</" ++ tag) :: (r.props.keys ++ (bindingExpression r.content).toList)

/-- A reading of nodes that write no tag that closes a script. -/
def scriptFilling (keys loops : List String) (typed language : Bool) : Filling where
  head := '<'
  isOwn s := !hasPart "</script".toList (s.toList.map asciiLower)
  keys
  loops
  typed
  language
  escapes := true

/-- Keys of what is read outside the lists. -/
def scriptKeys : Framework → List String
  | .vue => ["markup", "description", "pageTitle", "vueImports", "styleFile"]
  | _ => ["markup", "scopeNames", "styleFile"]

def htmlFilling (page : Bool) : Filling :=
  scriptFilling (scriptKeys .html) ["imports", "state", "effects", "functions"] false page

def vueFilling (typed : Bool) : Filling :=
  scriptFilling (scriptKeys .vue) ["imports", "state", "effects", "functions"] typed false

/-- What is read of properties. Their types are not written. -/
def propertyFilling : Filling := scriptFilling [] ["props"] false false

/-! The parts of the templates. -/

section Templates

lemma isOwn_script (keys loops : List String) (typed language : Bool) (s : String) :
    (scriptFilling keys loops typed language).reading.isOwn s =
      !hasPart "</script".toList (s.toList.map asciiLower) := rfl

namespace Target.Html

def frontNodes (page : Bool) : List Node := if page then pageNodes.take 10 else componentNodes.take 4

def backNodes (page : Bool) : List Node := if page then [.text "</body>\n</html>\n"] else []

lemma mainNodes_eq (page : Bool) :
    mainNodes page = frontNodes page ++ (scriptNode :: backNodes page) := by cases page <;> rfl

lemma apart_front (page : Bool) :
    areApart (htmlFilling page).reading .stop (frontNodes page) = true := by
  cases page <;> decide +kernel

lemma apart_back (page : Bool) :
    openingOf (htmlFilling page).reading .stop (backNodes page) = .stop ∧
      areApart (htmlFilling page).reading .stop (backNodes page) = true := by
  cases page <;> decide +kernel

lemma apart_script (page : Bool) :
    openingOf (htmlFilling page).reading .stop scriptBody = .stop ∧
      areApart (htmlFilling page).reading .stop scriptBody = true := by
  have hown : (htmlFilling page).reading.isOwn renderingText = true := by
    rw [htmlFilling, isOwn_script, renderingText_checked.2.2.2]
    rfl
  refine ⟨rfl, ?_⟩
  refine areApart_scriptBody hown (by cases page <;> decide) ?_ ?_ <;> cases page <;> decide +kernel

end Target.Html

namespace Target.Vue

def frontNodes : List Node := mainNodes.take 8

def laterNodes : List Node := (mainNodes.drop 9).take 4

lemma mainNodes_eq : mainNodes =
    frontNodes ++ (propertyNode :: (laterNodes ++ [.text "</script>\n", styleElement])) := rfl

/-- Nodes without types where they are not asked for. -/
def typedNodes (typed : Bool) (nodes : List Node) : List Node :=
  if typed then nodes else withoutAll (.holds "typescript") nodes

lemma apart_front (typed : Bool) :
    areApart (vueFilling typed).reading .stop (typedNodes typed frontNodes) = true := by
  cases typed <;> decide +kernel

lemma apart_later (typed : Bool) :
    openingOf (vueFilling typed).reading .stop (typedNodes typed laterNodes) = .stop ∧
      areApart (vueFilling typed).reading .stop (typedNodes typed laterNodes) = true := by
  cases typed <;> decide +kernel

lemma apart_property :
    openingOf propertyFilling.reading .stop [propertyNode] = .stop ∧
      areApart propertyFilling.reading .stop [propertyNode] = true := by
  decide +kernel

lemma apart_style (typed : Bool) :
    areApart (vueFilling typed).reading .stop [styleElement] = true := by
  cases typed <;> decide +kernel

end Target.Vue

end Templates

/-! What is filled in. -/

section Views

variable {f : Framework} {config : Config} {s : Subject} {o : Options} {v : View} {r : Registry}
  {keys loops : List String} {typed language : Bool} {fields : Table Json} {folder : Folder}
  {frameworks active : Json} {settings : Registry.Settings}

lemma not_continues_of_angle {text : String} (h : ¬ ClosesScript ("<" ++ text)) :
    ¬ Needle.scriptEnd.Continues text.toList := by
  intro hcontinues
  refine h (List.IsPrefix.isInfix ?_)
  rw [String.toList_append]
  exact List.cons_prefix_cons.2 ⟨rfl, hcontinues⟩

/-- No text closes a script that a main file takes over as it is of a view or of the nodes of its
subject. -/
structure View.LeavesOpen (v : View) (f : Framework) (s : Subject) : Prop where
  view : ∀ text ∈ v.rawTexts f, ¬ ClosesScript text
  nodes : ∀ t, s.Shows t → ∀ r ∈ t.records, ∀ text ∈ r.rawTexts f, ¬ ClosesScript text

lemma spares_record {d : Dialect} {record : Record} (hf : EmbedsScript f)
    (hd : (Target.ofFramework f).dialect config o = .ok d)
    (h : ∀ text ∈ record.rawTexts f, ¬ ClosesScript text) (styleClass : Option String) :
    d.Spares .scriptEnd record styleClass := by
  simp only [Record.rawTexts, List.forall_mem_cons, List.forall_mem_append] at h
  obtain ⟨hstart, hend, hnames, hexpression⟩ := h
  have hcareful := careful_dialect (n := .scriptEnd) (fun hreact => by subst hreact; cases hf) hd
  have hmild : Dialect.Mild .scriptEnd (f == .html) record styleClass :=
    { names := fun e he =>
        have hname := hnames e.1 (List.mem_map_of_mem he)
        ⟨hname, fun _ => Needle.Avoids.lower hname⟩
      values := .inl rfl
      content := .inl rfl
      expression := fun e he => hexpression e (Option.mem_toList.2 he)
      styleClass := fun _ _ => .inl rfl }
  cases hf with
  | vue =>
    cases hd
    exact hcareful.spares hmild hstart hend
  | html =>
    cases hd
    exact hcareful.spares hmild hstart hend

lemma avoids_view (h : ∀ text ∈ v.rawTexts f, ¬ ClosesScript text) :
    Needle.scriptEnd.Avoids v.files.styles.toList ∧
      (∀ x ∈ v.parts.state, x.initial.Avoids .scriptEnd ∧ x.type.Avoids .scriptEnd) ∧
      (∀ x ∈ v.parts.effects, x.Avoids .scriptEnd) ∧
      (∀ x ∈ v.parts.functions, Needle.scriptEnd.Avoids x.body.toList ∧
        ∀ text ∈ x.params, Needle.scriptEnd.Avoids text.toList) ∧
      ∀ x ∈ v.parts.imports, Needle.scriptEnd.Avoids x.source.toList := by
  simp only [View.rawTexts, List.forall_mem_cons, List.forall_mem_append, List.forall_mem_flatMap,
    List.forall_mem_map] at h
  obtain ⟨hstyles, ⟨⟨⟨hstate, heffects⟩, hfunctions⟩, himports⟩, -⟩ := h
  exact ⟨hstyles, hstate, fun x hx => ⟨(heffects x hx).1, (heffects x hx).2.1, (heffects x hx).2.2⟩,
    hfunctions, himports⟩

lemma avoids_component (h : ∀ text ∈ v.rawTexts .vue, ¬ ClosesScript text) :
    (∀ x ∈ v.parts.props, x.type.Avoids .scriptEnd ∧ ∀ w ∈ x.default, w.Avoids .scriptEnd) ∧
      v.description.Avoids .scriptEnd ∧ v.pageTitle.Avoids .scriptEnd ∧
      (v.typescript.isGiven = true → ∀ x ∈ v.parts.state,
        ¬ Needle.scriptEnd.Continues (stringify x.type).toList) := by
  simp only [View.rawTexts, List.forall_mem_cons, List.forall_mem_append, List.forall_mem_flatMap] at h
  obtain ⟨-, -, ⟨⟨hprops, hdescription⟩, htitle⟩, htypes⟩ := h
  refine ⟨fun x hx => ⟨(hprops x hx).1, fun w hw => ?_⟩, hdescription, htitle, fun ht x hx => ?_⟩
  · have hdefault := (hprops x hx).2
    rw [hw] at hdefault
    exact hdefault
  · rw [if_pos ht] at htypes
    exact not_continues_of_angle (htypes _ (List.mem_map_of_mem hx))

lemma avoids_lang (h : ∀ text ∈ v.rawTexts .html, ¬ ClosesScript text) (hpage : v.page = true) {w : Json}
    (hw : Leads (.obj v.parts.custom) ["lang"] w) : w.Avoids .scriptEnd := by
  obtain ⟨u, hget, hu⟩ := leads_cons_iff.1 hw
  cases hu
  have hmember : Json.member v.parts.custom "lang" = w := by rw [Json.member, hget, Option.getD_some]
  simp only [View.rawTexts, List.forall_mem_cons, List.forall_mem_append, hpage, if_true, hmember] at h
  exact h.2.2

/-- A view whose raw texts close no script does not bring such a tag into the templates. -/
lemma spares_script (hs : s.Standing) (hf : EmbedsScript f)
    (hview : (Generator.ofFramework f config).view s o = .ok v) (h : v.LeavesOpen f s)
    (hkeys : keys ⊆ scriptKeys f) (hprops : "props" ∈ loops → f = .vue ∧ typed = false)
    (htyped : typed = true → f = .vue ∧ v.typescript.isGiven = true)
    (hlanguage : language = true → f = .html ∧ v.page = true) :
    v.Spares (scriptFilling keys loops typed language) .scriptEnd := by
  obtain ⟨p, hp, rfl⟩ := map_eq_ok_iff.1 hview
  obtain ⟨t, d, unit, classes, ht, hd, hunit, hparts⟩ := Generator.exists_indentedParts hs hp
  have hraw := h.view
  obtain ⟨hstyles, hstate, heffects, hfunctions, himports⟩ := avoids_view hraw
  have hvue {key : String} (hkey : key ∈ ["description", "pageTitle"]) (hk : key ∈ keys) : f = .vue := by
    have hother : ∀ key ∈ ["description", "pageTitle"], key ∉ scriptKeys .html := by decide
    cases hf with
    | vue => rfl
    | html => exact absurd (hkeys hk) (hother key hkey)
  exact
    { state := fun x hx =>
        have hnamed := named_stateVariable (hparts.state ▸ hx)
        ⟨hnamed.1, hnamed.2, (hstate x hx).1, (hstate x hx).2⟩
      effects := heffects
      props := fun hloop x hx => by
        obtain ⟨rfl, -⟩ := hprops hloop
        obtain ⟨htype, hdefault⟩ := (avoids_component hraw).1 x hx
        have hx : x ∈ if s.isPage then [] else p.props := hx
        split_ifs at hx
        · cases hx
        · exact ⟨named_property (hparts.props ▸ hx), htype, hdefault⟩
      functions := fun x hx =>
        ⟨named_function hparts.functions hx, (hfunctions x hx).2, (hfunctions x hx).1⟩
      imports := fun x hx =>
        ⟨slash_notMem_binds ((hparts.binds x.name).1 ⟨x, hx, rfl⟩), himports x hx⟩
      markup := by
        change Needle.scriptEnd.Avoids p.markup.toList
        rw [hparts.markup]
        exact Dialect.avoids_render (leads_unit hunit) fun record hr =>
          spares_record hf hd (h.nodes t ht record hr) _
      name := fun hk => absurd (hkeys hk) (by cases f <;> decide)
      named := fun hnamed => by cases hnamed
      stateTypes := fun ht => by
        obtain ⟨rfl, hgiven⟩ := htyped ht
        exact (avoids_component hraw).2.2.2 hgiven
      propTypes := fun ht hloop => by
        rw [show typed = true from ht] at hprops
        cases (hprops hloop).2
      description := fun hk => by
        obtain rfl := hvue (by decide) hk
        exact (avoids_component hraw).2.1
      pageName := fun hk => absurd (hkeys hk) (by cases f <;> decide)
      pageTitle := fun hk => by
        obtain rfl := hvue (by decide) hk
        exact (avoids_component hraw).2.2.1
      styleFile := fun _ => hstyles
      language := fun hl w hw => by
        obtain ⟨rfl, hpage⟩ := hlanguage hl
        exact avoids_lang hraw hpage hw }

lemma reads_script (hf : EmbedsScript f)
    (hr : Registry.create folder frameworks settings active = .ok r)
    (hg : Generator.ofFramework f config ∈ r.generators)
    (hfields : (Generator.ofFramework f config).contextOf v = .ok fields)
    (hspares : v.Spares (scriptFilling keys loops typed language) .scriptEnd)
    (hkeys : keys ⊆ Filling.singles) (hloops : loops ⊆ Filling.lists)
    (hproper : (scriptFilling keys loops typed language).reading.isProper = true) :
    (scriptFilling keys loops typed language).reading.Holds .scriptEnd (.obj fields) ∧
      (scriptFilling keys loops typed language).reading.Serves .scriptEnd
        (r.store.helpersFor (some f.key)) := by
  have hformed : (scriptFilling keys loops typed language).Formed := ⟨hkeys, hloops⟩
  refine ⟨Generator.holds_reading hformed hspares (fun more hmore => ?_) hfields, ?_⟩
  · cases hf with
    | vue => exact Filling.takes_vue hformed hspares hmore
    | html => exact Filling.takes_html hformed hspares hmore
  · exact
      { proper := hproper
        head := rfl
        own := fun text htext => by
          rw [isOwn_script, Bool.not_eq_true', ← Bool.not_eq_true, hasPart_iff] at htext
          exact htext
        escapes := fun _ => rfl
        helpers := fun _ _ h => Registry.standard_helpers hr hg h }

end Views

/-! What is written. -/

section Texts

variable {config : Config} {s : Subject} {o : Options} {v : View} {r : Registry} {fields : Table Json}
  {folder : Folder} {frameworks active : Json} {settings : Registry.Settings} {text : String}

lemma closingTags_html (hr : Registry.create folder frameworks settings active = .ok r)
    (hg : Generator.ofFramework .html config ∈ r.generators) (hs : s.Standing)
    (hview : (Generator.ofFramework .html config).view s o = .ok v) (h : v.LeavesOpen .html s)
    (hfields : (Generator.ofFramework .html config).contextOf v = .ok fields)
    (htext : renderAll (r.store.helpersFor (some Framework.html.key)) (.obj fields)
      (Target.Html.mainNodes v.page) = .ok text) : closingTags text ≤ 1 := by
  have hspares : v.Spares (htmlFilling v.page) .scriptEnd :=
    spares_script hs .html hview h (List.Subset.refl _) (fun hk => absurd hk (by decide))
      (fun ht => by cases ht) fun hl => ⟨rfl, hl⟩
  obtain ⟨hholds, hserves⟩ : (htmlFilling v.page).reading.Holds .scriptEnd (.obj fields) ∧
      (htmlFilling v.page).reading.Serves .scriptEnd (r.store.helpersFor (some Framework.html.key)) :=
    reads_script .html hr hg hfields hspares (by decide) (by decide) (by cases v.page <;> decide)
  obtain ⟨hopening, hback⟩ := Target.Html.apart_back v.page
  obtain ⟨hstart, hscript⟩ := Target.Html.apart_script v.page
  have hfront := Target.Html.apart_front v.page
  rw [Target.Html.mainNodes_eq] at htext
  obtain ⟨first, rest, hfirst, hrest, rfl⟩ := renderAll_append_eq_ok.1 htext
  obtain ⟨script, last, hnode, hlast, rfl⟩ := renderAll_cons_eq_ok.1 hrest
  rw [Target.Html.scriptNode, Node.render, bind_eq_ok_iff] at hnode
  obtain ⟨given, -, hnode⟩ := hnode
  cases given with
  | true =>
    obtain ⟨body, closing, hbody, hclosing, rfl⟩ := renderAll_append_eq_ok.1 hnode
    rw [renderAll_singleton, Node.render] at hclosing
    cases hclosing
    have happart : areApart (htmlFilling v.page).reading .stop
        (Target.Html.frontNodes v.page ++ Target.Html.scriptBody) = true := by
      rw [areApart_append, hstart, hfront, hscript]
      rfl
    have hbefore := avoids_rendered hholds hserves happart
      (renderAll_append_eq_ok.2 ⟨first, body, hfirst, hbody, rfl⟩)
    have hafter := avoids_rendered hholds hserves hback hlast
    rw [← String.append_assoc, ← String.append_assoc, Needle.closingTags_around,
      Needle.closingTags_eq_zero_iff.2 hbefore, Needle.closingTags_eq_zero_iff.2 hafter]
  | false =>
    rw [renderAll] at hnode
    cases hnode
    have happart : areApart (htmlFilling v.page).reading .stop
        (Target.Html.frontNodes v.page ++ Target.Html.backNodes v.page) = true := by
      rw [areApart_append, hopening, hfront, hback]
      rfl
    have hwhole := avoids_rendered hholds hserves happart
      (renderAll_append_eq_ok.2 ⟨first, last, hfirst, hlast, rfl⟩)
    rw [String.empty_append, Needle.closingTags_eq_zero_iff.2 hwhole]
    exact Nat.zero_le 1

lemma renderAll_typed (hfields : (Generator.ofFramework .vue config).contextOf v = .ok fields)
    {helpers : Table Helper} {nodes : List Node}
    (h : renderAll helpers (.obj fields) nodes = .ok text) :
    renderAll helpers (.obj fields) (Target.Vue.typedNodes v.typescript.isGiven nodes) = .ok text := by
  cases hgiven : v.typescript.isGiven with
  | true => exact h
  | false =>
    have hmem : ("typescript", v.typescript) ∈ v.toContext := by simp [View.toContext_eq]
    have hget := (Generator.resolve_context hfields "typescript"
      (show segments "typescript" = ["typescript"] from rfl) (by decide) hmem).1
    have hlacks : Lacks "typescript" (.obj fields) :=
      { lookup := by decide
        outer := by decide
        value := fun w hw => by
          rw [show segments (trimmed "typescript") = ["typescript"] by decide +kernel] at hw
          obtain ⟨u, hu, hw⟩ := leads_cons_iff.1 hw
          cases hw
          cases hget.symm.trans hu
          exact hgiven }
    exact renderAll_without nodes hlacks h

lemma closingTags_vue (hr : Registry.create folder frameworks settings active = .ok r)
    (hg : Generator.ofFramework .vue config ∈ r.generators) (hs : s.Standing)
    (hview : (Generator.ofFramework .vue config).view s o = .ok v) (h : v.LeavesOpen .vue s)
    (hfields : (Generator.ofFramework .vue config).contextOf v = .ok fields)
    (htext : renderAll (r.store.helpersFor (some Framework.vue.key)) (.obj fields)
      Target.Vue.mainNodes = .ok text) : closingTags text ≤ 1 := by
  have hspares : v.Spares (vueFilling v.typescript.isGiven) .scriptEnd :=
    spares_script hs .vue hview h (List.Subset.refl _) (fun hk => absurd hk (by decide))
      (fun ht => ⟨rfl, ht⟩) fun hl => by cases hl
  have hproperties : v.Spares propertyFilling .scriptEnd :=
    spares_script hs .vue hview h (List.nil_subset _) (fun _ => ⟨rfl, rfl⟩) (fun ht => by cases ht)
      fun hl => by cases hl
  obtain ⟨hholds, hserves⟩ : (vueFilling v.typescript.isGiven).reading.Holds .scriptEnd (.obj fields) ∧
      (vueFilling v.typescript.isGiven).reading.Serves .scriptEnd
        (r.store.helpersFor (some Framework.vue.key)) :=
    reads_script .vue hr hg hfields hspares (by decide) (by decide)
      (by cases v.typescript.isGiven <;> decide)
  obtain ⟨hholdsProperty, hservesProperty⟩ : propertyFilling.reading.Holds .scriptEnd (.obj fields) ∧
      propertyFilling.reading.Serves .scriptEnd (r.store.helpersFor (some Framework.vue.key)) :=
    reads_script .vue hr hg hfields hproperties (by decide) (by decide) (by decide)
  obtain ⟨hopening, hlater⟩ := Target.Vue.apart_later v.typescript.isGiven
  obtain ⟨hstart, hproperty⟩ := Target.Vue.apart_property
  have hfront := Target.Vue.apart_front v.typescript.isGiven
  have hend : Opening.stop.Holds .scriptEnd [] := fun _ hc => by cases hc
  rw [Target.Vue.mainNodes_eq] at htext
  obtain ⟨first, rest, hfirst, hrest, rfl⟩ := renderAll_append_eq_ok.1 htext
  obtain ⟨declared, others, hdeclared, hothers, rfl⟩ := renderAll_cons_eq_ok.1 hrest
  obtain ⟨later, ending, hended, hending, rfl⟩ := renderAll_append_eq_ok.1 hothers
  obtain ⟨closing, last, hclosing, hlast, rfl⟩ := renderAll_cons_eq_ok.1 hending
  rw [Node.render] at hclosing
  cases hclosing
  rw [← renderAll_singleton] at hdeclared
  have htyped := renderAll_typed hfields hended
  -- each part begins with a stop, so that the parts are put together from the last to the first
  have hlaterStop := opening_renderAll _ hholds hserves.proper htyped hend
  rw [hopening, List.append_nil] at hlaterStop
  have hlaterAvoids := avoids_rendered hholds hserves hlater htyped
  have hrestStop := opening_renderAll _ hholdsProperty hservesProperty.proper hdeclared hlaterStop
  rw [hstart] at hrestStop
  have hrestAvoids := avoids_renderAll _ hholdsProperty hservesProperty hproperty hdeclared hlaterStop
    hlaterAvoids
  have hwhole := avoids_renderAll _ hholds hserves hfront (renderAll_typed hfields hfirst) hrestStop
    hrestAvoids
  have hbefore : ¬ ClosesScript (first ++ (declared ++ later)) := by
    rwa [← Needle.avoids_scriptEnd_iff, String.toList_append, String.toList_append]
  have hafter := avoids_rendered hholds hserves (Target.Vue.apart_style _) hlast
  rw [show first ++ (declared ++ (later ++ ("</script>\n" ++ last))) =
      first ++ (declared ++ later) ++ "</script>\n" ++ last by simp only [String.append_assoc],
    Needle.closingTags_around, Needle.closingTags_eq_zero_iff.2 hbefore,
    Needle.closingTags_eq_zero_iff.2 hafter]

/-- The main file that is written for a view closes its script once at most. -/
lemma closingTags_written {f : Framework} (hf : EmbedsScript f)
    (hr : Registry.create folder frameworks settings active = .ok r)
    (hg : Generator.ofFramework f config ∈ r.generators) (hs : s.Standing)
    (hview : (Generator.ofFramework f config).view s o = .ok v) (h : v.LeavesOpen f s)
    {files : Table Artifact}
    (hfiles : (Generator.ofFramework f config).files
      (r.freeze.engine (Generator.ofFramework f config)) v = .ok files) :
    ∃ main, files.get? "main" = some main ∧ main.name = v.files.main ∧
      closingTags main.content ≤ 1 := by
  obtain ⟨fields, source, text, hfields, hsource, htext, hmain⟩ :=
    Generator.exists_main (Registry.stocks_create hr _ hg) hfiles
  rw [Target.compile_main hsource] at htext
  have hcount : closingTags text ≤ 1 := by
    cases hf with
    | vue => exact closingTags_vue hr hg hs hview h hfields htext
    | html => exact closingTags_html hr hg hs hview h hfields htext
  refine ⟨_, hmain, rfl, ?_⟩
  rwa [show (Artifact.mk v.files.main (tidy text)).content = tidy text from rfl, Needle.closingTags_tidy]

end Texts

namespace Registry

variable {r : Registry} {g : Generator} {s : Subject} {o : Options} {v : View} {code : Code}
  {folder : Folder} {frameworks active : Json} {settings : Settings}

/-- The main file of code is the one that is written for the view, or its script is made smaller. -/
lemma main_of_generate (hg : r.resolve o.framework = .ok g) (hview : g.view s o = .ok v)
    (h : (r.generate s o).2 = .ok code) :
    ∃ files, g.files (r.freeze.engine g) v = .ok files ∧ ∀ main, files.get? "main" = some main →
      code.files.get? "main" = some main ∨ ∃ imports content, g.weightedImports v = .ok imports ∧
        Optimize.mainScript g.config g.framework imports o.lazyImports (lower main.extension)
          main.content = .ok content ∧ code.files.get? "main" = some { main with content } := by
  rw [generate, hg] at h
  obtain ⟨v', hv', h⟩ := bind_eq_ok_iff.1 h
  cases hview.symm.trans hv'
  obtain ⟨written, hwritten, h⟩ := bind_eq_ok_iff.1 h
  obtain ⟨files, hfiles, hwritten⟩ := bind_eq_ok_iff.1 hwritten
  obtain ⟨warnings, -, hwritten⟩ := bind_eq_ok_iff.1 hwritten
  cases hwritten
  refine ⟨files, hfiles, fun main hmain => ?_⟩
  split_ifs at h
  · obtain ⟨imports, himports, h⟩ := bind_eq_ok_iff.1 h
    obtain ⟨fields, first, styles, index, -, -, -, -, hshape⟩ := Generator.files_eq_ok_iff.1 hfiles
    subst hshape
    rw [Table.get?_cons, if_pos rfl] at hmain
    cases hmain
    obtain ⟨content, hcontent, hsmaller⟩ := exists_smallerMain (mapError_eq_ok_iff.1 h) rfl
    exact .inr ⟨imports, content, mapError_eq_ok_iff.1 himports, hcontent, hsmaller⟩
  · cases h
    exact .inl hmain

lemma mem_weightedImports {imports : List Script.WeightedImport} (h : g.weightedImports v = .ok imports) :
    ∀ i ∈ imports, ∃ x ∈ g.imports v, i.name = x.name ∧ i.source = x.source := by
  intro i hi
  obtain ⟨x, hx, hmade⟩ := exists_of_mem_right (mapM_eq_ok_iff.1 h) hi
  refine ⟨x, hx, ?_⟩
  rw [weighted, Script.WeightedImport.make] at hmade
  split_ifs at hmade
  cases hmade
  exact ⟨rfl, rfl⟩

lemma extension_append {stem extension content : String} (h : '.' ∉ extension.toList) :
    Artifact.extension ⟨stem ++ "." ++ extension, content⟩ = extension := by
  rw [Artifact.extension, (FileNames.split_at_extension h).1, List.reverse_reverse,
    String.ofList_toList]

lemma extension_main {f : Framework} (hf : EmbedsScript f) (name : String) (o : Options)
    (content : String) :
    lower (Artifact.extension ⟨((Target.ofFramework f).fileNames name o).main, content⟩) = f.key := by
  cases hf with
  | vue =>
    have hname : ((Target.ofFramework .vue).fileNames name o).main = name ++ "." ++ "vue" := by
      rw [String.append_assoc]
      rfl
    rw [hname, extension_append (by decide)]
    decide +kernel
  | html =>
    have hname : ((Target.ofFramework .html).fileNames name o).main = name ++ "." ++ "html" := by
      rw [String.append_assoc]
      rfl
    rw [hname, extension_append (by decide)]
    decide +kernel

/-- The main file of plain markup and of a single-file component closes its script once at most, made
smaller or not, if no text does that it takes over as it is. Contents and values of attributes are escaped
in both, and so are the title and the description in plain markup: they may have any text. -/
theorem script_closed_once (hr : create folder frameworks settings active = .ok r) (hs : s.Standing)
    (hg : r.resolve o.framework = .ok g) (hf : EmbedsScript g.framework) (hview : g.view s o = .ok v)
    (h : v.LeavesOpen g.framework s) (hcode : (r.generate s o).2 = .ok code) :
    ∃ main, code.files.get? "main" = some main ∧ closingTags main.content ≤ 1 := by
  have hmem := mem_of_resolve hg
  have hstocks := stocks_create hr g hmem
  obtain ⟨f, config, rfl, -⟩ := id hstocks
  rw [framework_ofFramework] at hf h
  obtain ⟨files, hfiles, hmain⟩ := main_of_generate hg hview hcode
  obtain ⟨main, hwritten, hname, hcount⟩ := closingTags_written hf hr hmem hs hview h hfiles
  rcases hmain main hwritten with hmain | ⟨imports, content, himports, hcontent, hmain⟩
  · exact ⟨main, hmain, hcount⟩
  · refine ⟨_, hmain, le_trans ?_ hcount⟩
    have hspares : v.Spares (scriptFilling [] [] false false) .scriptEnd :=
      spares_script hs hf hview h (List.nil_subset _) (fun hk => by cases hk) (fun ht => by cases ht)
        fun hl => by cases hl
    have havoids : ∀ i ∈ imports, i.Avoids .scriptEnd := by
      intro i hi
      obtain ⟨x, hx, hname, hsource⟩ := mem_weightedImports himports i hi
      obtain ⟨y, hy, rfl⟩ := List.mem_map.1 hx
      have hspelled : (Generator.ofFramework f config).target.spelled y = y := by cases hf <;> rfl
      rw [hspelled] at hname hsource
      have hy := hspares.imports y hy
      exact ⟨hname ▸ hy.name, hsource ▸ hy.source⟩
    have hextension : lower main.extension = f.key := by
      obtain ⟨p, -, rfl⟩ := map_eq_ok_iff.1 hview
      rw [Artifact.extension, hname]
      exact extension_main hf _ o main.content
    refine count_mainScript havoids ?_ hcontent
    rw [hextension]
    cases hf <;> decide

/-- A button whose text, label and handler have a tag that closes scripts. -/
def closingButton : Tree :=
  .node ⟨"a", "button", [("state", .obj [("x", .int 0)]), ("label", .str "</SCRIPT>"),
    ("onClick", .str "say('</script>')")], [], .str "</script>"⟩ []

theorem script_closed_once_button :
    ∃ r code main, create {} (.arr [.str "html"]) (.layers .null) .null = .ok r ∧
      (r.generate (.component (.tree closingButton)) { description := .str "</script>" }).2 = .ok code ∧
      code.files.get? "main" = some main ∧ closingTags main.content ≤ 1 := by
  let check (g : Generator) (v : View) : Bool :=
    (v.rawTexts .html).all (fun text => !decide (ClosesScript text)) &&
      closingButton.records.all fun record =>
        (record.rawTexts .html).all fun text => !decide (ClosesScript text)
  obtain ⟨r, g, v, code, main, styles, index, hr, hg, hframework, hview, hcheck, hcode, -⟩ :=
    Generator.exists_made .html (.layers .null) (s := .component (.tree closingButton))
      (o := { description := .str "</script>" }) check rfl (by decide +kernel)
  simp only [check, Bool.and_eq_true, List.all_eq_true, Bool.not_eq_true', decide_eq_false_iff_not]
    at hcheck
  have hs : Subject.Standing (.component (.tree closingButton)) := fun a ha => by cases ha
  obtain ⟨main, hmain, hcount⟩ := script_closed_once hr hs hg (hframework ▸ .html) hview
    (hframework ▸ ⟨hcheck.1, fun t ht => ht.of_toTree rfl ▸ hcheck.2⟩) hcode
  exact ⟨r, code, main, hr, hcode, hmain, hcount⟩

end Registry

lemma Generator.closed_twice {config : Config} {v : View} {r : Registry}
    (hr : r.Stocks (ofFramework .vue config)) {x : StateVariable} (hx : x ∈ v.parts.state)
    (hcloses : ClosesScript (literal x.initial)) {files : Table Artifact}
    (h : (ofFramework .vue config).files (r.freeze.engine (ofFramework .vue config)) v = .ok files) :
    ∃ main, files.get? "main" = some main ∧ 2 ≤ closingTags main.content := by
  obtain ⟨fields, source, text, hfields, hsource, htext, hmain⟩ := exists_main hr h
  refine ⟨_, hmain, ?_⟩
  change 2 ≤ closingTags (tidy text)
  rw [Needle.closingTags_tidy]
  rw [Target.compile_main hsource] at htext
  have hnodes : Target.mainNodes v.page .vue =
      Target.Vue.mainNodes.take 13 ++ (.text "</script>\n" :: [Target.Vue.styleElement]) := rfl
  rw [hnodes] at htext
  obtain ⟨script, ending, hscript, hending, rfl⟩ := renderAll_append_eq_ok.1 htext
  obtain ⟨closing, last, hclosing, -, rfl⟩ := renderAll_cons_eq_ok.1 hending
  rw [Node.render] at hclosing
  cases hclosing
  have hstate : resolvePath "state" (.obj fields) = .ok (objects (v.parts.state.map (·.toFields))) :=
    (resolve_context hfields "state" rfl (by decide)
      (by simp [View.toContext_eq, Parts.toContext])).2
  have hloop : standsAt [.loop "state" Target.Vue.stateBody] true (Target.Vue.mainNodes.take 13) = true := by
    decide
  obtain ⟨place, before, written, after, hwritten, hscript, -⟩ :=
    exists_writtenIn (Target.Vue.stateBody.take 5 ++ [.interpolation "item.initialValue"]) hloop
      (by decide) (by decide) hstate (List.mem_map_of_mem (List.mem_map_of_mem hx)) hscript
  obtain ⟨first, value, -, hvalue, rfl⟩ := renderAll_append_eq_ok.1 hwritten
  have hinitial : resolvePath "item.initialValue" (loopContext (.obj fields) (.obj x.toFields) place) =
      .ok (.str (literal x.initial)) :=
    resolve_item "initialValue" rfl (by simp [StateVariable.toFields, Table.get?_cons]) place
  rw [renderAll_singleton, Node.render, hinitial] at hvalue
  cases hvalue
  have hinside : (literal x.initial).toList <:+: script.toList :=
    ⟨before ++ first.toList, after, by simp [hscript, stringify]⟩
  have hfirst : ClosesScript script := hcloses.trans (hinside.map asciiLower)
  have hpos : closingTags script ≠ 0 := fun hzero => Needle.closingTags_eq_zero_iff.1 hzero hfirst
  rw [← String.append_assoc, Needle.closingTags_around]
  omega

namespace Registry

def stateful (initial : String) : Tree :=
  .node ⟨"a", "div", [("state", .obj [("x", .str initial)])], [], .null⟩ []

/-- An initial value alone closes the script early. The view has no other text that does. -/
theorem script_closed_early :
    ∃ r g v code main, create {} (.arr [.str "vue"]) (.layers .null) .null = .ok r ∧
      r.resolve none = .ok g ∧ g.view (.component (.tree (stateful "</script>"))) {} = .ok v ∧
      (r.generate (.component (.tree (stateful "</script>"))) {}).2 = .ok code ∧
      code.files.get? "main" = some main ∧ 2 ≤ closingTags main.content ∧
      v.parts.effects.isEmpty ∧ v.parts.functions.isEmpty ∧ v.parts.imports.isEmpty ∧
      (∀ x ∈ v.parts.state, ∀ text ∈ x.type.texts, ¬ ClosesScript text) ∧
      ∀ record ∈ (stateful "</script>").records, bindingExpression record.content = none ∧
        record.props.keys = ["state"] := by
  let check (_ : Generator) (v : View) : Bool :=
    v.parts.state.any (fun x => decide (ClosesScript (literal x.initial))) &&
      v.parts.effects.isEmpty && v.parts.functions.isEmpty && v.parts.imports.isEmpty &&
      v.parts.state.all fun x => x.type.texts.all fun text => !decide (ClosesScript text)
  obtain ⟨r, g, v, code, main, styles, index, hr, hg, hframework, hview, hcheck, hcode, -⟩ :=
    Generator.exists_made .vue (.layers .null) (s := .component (.tree (stateful "</script>"))) (o := {})
      check rfl (by decide +kernel)
  simp only [check, Bool.and_eq_true, List.any_eq_true, List.all_eq_true, Bool.not_eq_true',
    decide_eq_true_eq, decide_eq_false_iff_not] at hcheck
  obtain ⟨⟨⟨⟨⟨x, hx, hcloses⟩, heffects⟩, hfunctions⟩, himports⟩, htypes⟩ := hcheck
  have hfiles := files_of_view hg hview rfl hcode
  have hstocks := stocks_create hr g (mem_of_resolve hg)
  obtain ⟨f, config, rfl, -⟩ := id hstocks
  rw [framework_ofFramework] at hframework
  subst hframework
  obtain ⟨main, hmain, htwice⟩ := Generator.closed_twice hstocks hx hcloses hfiles
  exact ⟨r, _, v, code, main, hr, hg, hview, hcode, hmain, htwice, heffects, hfunctions, himports, htypes,
    by simp [stateful, Tree.records, Tree.recordsOf, bindingExpression, Table.keys]⟩

end Registry

end ViewWriter
