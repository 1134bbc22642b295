import ViewWriter.Proofs.Generator.Computing
import ViewWriter.Proofs.Generator.IndexFile
import ViewWriter.Proofs.Generator.Readings
import ViewWriter.Proofs.Generator.StyleReference
import ViewWriter.Proofs.Generator.TakenTexts

/-! References between the files of a view. Main templates without their references to style files have no
reference to a file next to them, and they keep the texts that are filled in apart. -/

namespace ViewWriter

open ViewWriter.Text ViewWriter.Schema ViewWriter.Analysis ViewWriter.Template

/-- A reading of main templates without their references to style files. -/
def unstyledFilling : Filling where
  head := '.'
  isOwn s := !hasPart "./".toList s.toList
  keys := Filling.singles.filter (· != "styleFile")
  named := true
  language := true

section Templates

variable {f : Framework} {page : Bool} {helpers : Table Helper} {context : Json} {text : String}

/-- The nodes of a main template but for the one that refers to the style file. -/
def unstyledNodes (page : Bool) (f : Framework) : List Node :=
  (Target.mainNodes page f).filter (· != Target.styleNode page f)

lemma isOwn_unstyled (s : String) :
    unstyledFilling.reading.isOwn s = !hasPart "./".toList s.toList := rfl

lemma isApart_htmlScript : Target.Html.scriptNode.isApart unstyledFilling.reading .stop = true := by
  have hown : unstyledFilling.reading.isOwn Target.Html.renderingText = true := by
    rw [isOwn_unstyled, Target.Html.renderingText_checked.2.2.1]
    rfl
  have hbody : areApart unstyledFilling.reading .stop Target.Html.scriptBody = true :=
    Target.Html.areApart_scriptBody hown (by decide) (by decide +kernel) (by decide +kernel)
  have hclosing : openingOf unstyledFilling.reading .stop [.text "</script>\n"] = .stop ∧
      areApart unstyledFilling.reading .stop [.text "</script>\n"] = true := by decide +kernel
  rw [Target.Html.scriptNode, Node.isApart, areApart_append, hclosing.1, hclosing.2, hbody]
  rfl

lemma areApart_htmlPage (page : Bool) :
    areApart unstyledFilling.reading .stop (unstyledNodes page .html) = true := by
  have hpieces : ∃ front back, unstyledNodes page .html =
      front ++ (Target.Html.scriptNode :: back) ∧
      openingOf unstyledFilling.reading .stop back = .stop ∧
      areApart unstyledFilling.reading .stop back = true ∧
      areApart unstyledFilling.reading
        (openingOf unstyledFilling.reading .stop (Target.Html.scriptNode :: back)) front = true := by
    cases page with
    | false =>
      refine ⟨(unstyledNodes false .html).take 3, [], rfl, rfl, rfl, by decide +kernel⟩
    | true =>
      refine ⟨(unstyledNodes true .html).take 9, [.text "</body>\n</html>\n"], rfl, ?_, ?_, ?_⟩
      all_goals decide +kernel
  obtain ⟨front, back, hnodes, hopening, hback, hfront⟩ := hpieces
  rw [hnodes, areApart_append, hfront, areApart, hopening, isApart_htmlScript, hback]
  rfl

lemma areApart_unstyled (page : Bool) (f : Framework) :
    areApart unstyledFilling.reading .stop (unstyledNodes page f) = true := by
  cases f with
  | html => exact areApart_htmlPage page
  | react => cases page <;> decide +kernel
  | vue =>
    have hnodes : areApart unstyledFilling.reading .stop (unstyledNodes false .vue) = true := by
      decide +kernel
    cases page <;> exact hnodes
  | angular =>
    have hnodes : areApart unstyledFilling.reading .stop (unstyledNodes false .angular) = true := by
      decide +kernel
    cases page <;> exact hnodes

lemma renderAll_filter {node : Node} {nodes : List Node} (hnode : node.render helpers context = .ok "")
    (h : renderAll helpers context nodes = .ok text) :
    renderAll helpers context (nodes.filter (· != node)) = .ok text := by
  induction nodes generalizing text with
  | nil => exact h
  | cons m rest ih =>
    obtain ⟨first, others, hfirst, hothers, rfl⟩ := renderAll_cons_eq_ok.1 h
    rw [List.filter_cons]
    split_ifs with hm
    · exact renderAll_cons_eq_ok.2 ⟨first, others, hfirst, ih hothers, rfl⟩
    · obtain rfl : m = node := by simpa using hm
      cases hfirst.symm.trans hnode
      rw [String.empty_append]
      exact ih hothers

end Templates

section Views

variable {base : List Char} {hbase : ∀ c ∈ base, isStop c = false} {f : Framework} {config : Config}
  {s : Subject} {o : Options} {v : View} {default : String} {r : Registry} {fields : Table Json}
  {folder : Folder} {frameworks active : Json} {settings : Registry.Settings}

/-- Nothing that a main file may take over has a reference to a stylesheet. -/
structure Unreferring (n : Needle) (f : Framework) (t : Tree) (o : Options) (config : Config) : Prop
    where
  records : ∀ r ∈ t.records, r.Avoids n
  settings : o.Avoids n config
  lower : f = .html → ∀ r ∈ t.records, ∀ e ∈ r.props, n.Avoids (lower e.1).toList

lemma spares_view (hs : s.Standing) (hview : (Generator.ofFramework f config).view s o = .ok v)
    (hdefault : config.defaultName = .str default) (hnamed : Name.IsNamed default)
    (h : ∀ t, s.Shows t → Unreferring (.stylesheet base hbase) f t o config) :
    v.Spares unstyledFilling (.stylesheet base hbase) := by
  obtain ⟨name, hname, hchars, -⟩ := Generator.exists_viewName hs hview hdefault hnamed
  obtain ⟨p, hp, rfl⟩ := map_eq_ok_iff.1 hview
  obtain ⟨t, d, unit, classes, ht, hd, hunit, hparts⟩ := Generator.exists_indentedParts hs hp
  obtain ⟨hrecords, hsettings, hlower⟩ := h t ht
  have hprops : ∀ r ∈ t.records, (Json.obj r.props).Avoids (.stylesheet base hbase) :=
    fun r hr => (hrecords r hr).props
  have hnameAvoids : (View.name ((Generator.ofFramework f config).viewOf p s.isPage o)).Avoids
      (.stylesheet base hbase) := by
    rw [hname, Json.avoids_str]
    exact hchars.avoids _
  obtain ⟨sections, himports⟩ := hparts.imports
  exact
    { state := hparts.state ▸ avoids_stateVariables hprops
      effects := avoids_effects hprops hparts.effects
      props := fun _ x hx => by
        have hx : x ∈ if s.isPage then [] else p.props := hx
        split_ifs at hx
        · cases hx
        · exact avoids_properties hprops x (hparts.props ▸ hx)
      functions := avoids_functions hprops hparts.functions
      imports := avoids_imports hprops (fun _ => Needle.avoids_named) himports
      markup := by
        change (Needle.stylesheet base hbase).Avoids p.markup.toList
        rw [hparts.markup]
        exact Markup.Dialect.avoids_render (leads_unit hunit) fun r hr =>
          spares_stylesheet hd hparts.classNames hsettings (hrecords r hr) fun hf => hlower hf r hr
      name := fun _ => hnameAvoids
      named := fun _ => by
        rw [hname]
        exact hchars.slash_notMem
      stateTypes := fun ht => by cases ht
      propTypes := fun ht => by cases ht
      description := fun _ => by
        change (if _ then o.description else .null).Avoids _
        split_ifs
        · exact hsettings.description
        · exact Json.avoids_null
      pageName := fun _ => by
        change (if _ then _ else Json.null).Avoids _
        split_ifs
        · exact hnameAvoids
        · exact Json.avoids_null
      pageTitle := fun _ => by
        change (if _ then _ else Json.null).Avoids _
        split_ifs
        · exact hsettings.pageTitle.orElse hnameAvoids
        · exact Json.avoids_null
      styleFile := fun hkey => absurd hkey (by decide)
      language := fun _ w hw => avoids_language hsettings.custom hparts.custom hw }

lemma serves_unstyled (hr : Registry.create folder frameworks settings active = .ok r)
    (hg : Generator.ofFramework f config ∈ r.generators) :
    unstyledFilling.reading.Serves (.stylesheet base hbase) (r.store.helpersFor (some f.key)) where
  proper := by decide
  head := rfl
  own s hs := by
    rw [isOwn_unstyled, Bool.not_eq_true', ← Bool.not_eq_true, hasPart_iff] at hs
    rw [Needle.avoids_stylesheet_iff, List.append_assoc]
    exact fun hpart => hs ((List.prefix_append _ _).isInfix.trans hpart)
  escapes h := by cases h
  helpers _ _ h := Registry.standard_helpers hr hg h

lemma formed_unstyled : unstyledFilling.Formed := ⟨List.filter_subset_self _, List.Subset.refl _⟩

lemma takes_additions (hspares : v.Spares unstyledFilling (.stylesheet base hbase))
    (hname : Name.IsNamed v.name.display) (hpoint : f = .angular → '.' ∈ base)
    (hcustom : config.custom.Avoids (.stylesheet base hbase)) {more : Table Json}
    (hmore : (Target.ofFramework f).additions config v = .ok more) :
    ∀ e ∈ more, unstyledFilling.Takes (.stylesheet base hbase) e := by
  cases f with
  | react => exact Filling.takes_react formed_unstyled hspares (by decide) hname hmore
  | vue => exact Filling.takes_vue formed_unstyled hspares hmore
  | angular =>
    refine Filling.takes_angular (fun _ => Needle.avoids_component (hpoint rfl)) formed_unstyled
      hspares hname (fun start hstart => ?_) hmore
    exact avoids_prefixed (avoids_selectorPrefix hcustom hstart) (Name.isNamed_kebab _)
  | html => exact Filling.takes_html formed_unstyled hspares hmore

/-- The main file of a view without rules refers to no stylesheet, if nothing does that it takes over
from its subject. -/
lemma main_unstyled (hr : Registry.create folder frameworks settings active = .ok r)
    (hg : Generator.ofFramework f config ∈ r.generators) (hs : s.Standing)
    (hview : (Generator.ofFramework f config).view s o = .ok v)
    (hdefault : config.defaultName = .str default) (hnamed : Name.IsNamed default)
    (h : ∀ t, s.Shows t → Unreferring (.stylesheet base hbase) f t o config)
    (hpoint : f = .angular → '.' ∈ base) (hstyles : v.parts.styles = []) {files : Table Artifact}
    (hfiles : (Generator.ofFramework f config).files
      (r.freeze.engine (Generator.ofFramework f config)) v = .ok files) :
    ∃ main, files.get? "main" = some main ∧
      (Needle.stylesheet base hbase).Avoids main.content.toList := by
  have hstocks := Registry.stocks_create hr _ hg
  have hspares := spares_view hs hview hdefault hnamed h
  obtain ⟨name, hname, hchars, -⟩ := Generator.exists_viewName hs hview hdefault hnamed
  obtain ⟨p, hp, -⟩ := map_eq_ok_iff.1 hview
  obtain ⟨t, -, -, -, ht, -, -⟩ := Generator.exists_partsOf hs hp
  have hcustom := (h t ht).settings.custom
  obtain ⟨fields, source, text, hfields, hsource, htext, hmain⟩ := Generator.exists_main hstocks hfiles
  obtain ⟨modules, hfacts, -⟩ := Generator.exists_styleFacts hfields
  have hholds := Generator.holds_reading (n := .stylesheet base hbase) formed_unstyled hspares
    (fun more hmore => takes_additions hspares (by rwa [hname]) hpoint hcustom hmore) hfields
  rw [hstyles] at hfacts
  have hnode : (Target.styleNode v.page f).render (r.store.helpersFor (some f.key)) (.obj fields) =
      .ok "" := by
    rw [← renderAll_singleton]
    exact Target.render_styleNode hfacts
  rw [Target.compile_main hsource] at htext
  refine ⟨_, hmain, ?_⟩
  rw [tidy, String.toList_ofList]
  exact (avoids_rendered hholds (serves_unstyled hr hg) (areApart_unstyled v.page f)
    (renderAll_filter hnode htext)).tidyChars

end Views

/-- The text names a file next to it. -/
def NamesFile (file text : String) : Prop := ("./" ++ file).toList <:+: text.toList

instance (file text : String) : Decidable (NamesFile file text) :=
  inferInstanceAs (Decidable (_ <:+: _))

/-- None of the texts that a main file may take over names a file. Plain markup also takes over the
names of properties in small letters. -/
structure Unnamed (file : String) (f : Framework) (t : Tree) (o : Options) (config : Config) : Prop
    where
  given : ∀ text ∈ givenTexts t o config, ¬ NamesFile file text
  lower : f = .html → ∀ node ∈ t.records, ∀ e ∈ node.props, ¬ NamesFile file (lower e.1)

section Names

variable {base file text : String} {hbase : ∀ c ∈ base.toList, isStop c = false}

lemma avoids_iff_not_namesFile (hfile : file = base ++ ".css") :
    (Needle.stylesheet base.toList hbase).Avoids text.toList ↔ ¬ NamesFile file text := by
  rw [Needle.avoids_stylesheet_iff, NamesFile, hfile, String.toList_append, String.toList_append,
    List.append_assoc]

lemma Unnamed.unreferring {f : Framework} {t : Tree} {o : Options} {config : Config}
    (h : Unnamed file f t o config) (hbase : ∀ c ∈ base.toList, isStop c = false)
    (hfile : file = base ++ ".css") :
    Unreferring (.stylesheet base.toList hbase) f t o config := by
  obtain ⟨hrecords, hsettings⟩ :=
    avoids_given fun text htext => (avoids_iff_not_namesFile hfile).2 (h.given text htext)
  exact ⟨hrecords, hsettings, fun hf node hnode e he =>
    (avoids_iff_not_namesFile hfile).2 (h.lower hf node hnode e he)⟩

end Names

lemma Generator.main_hasMarkup {config : Config} {v : View} {r : Registry} {files : Table Artifact}
    (hr : r.Stocks (ofFramework .html config)) (hpage : v.page = false)
    (h : (ofFramework .html config).files (r.freeze.engine (ofFramework .html config)) v = .ok files) :
    ∃ main, files.get? "main" = some main ∧ ∀ part : String, IsSolid part.toList →
      part.toList <:+: v.parts.markup.toList → LineHas main.content part := by
  obtain ⟨fields, source, text, hfields, hsource, htext, hmain⟩ := exists_main hr h
  refine ⟨_, hmain, fun part hsolid hpart => ?_⟩
  rw [Target.compile_main hsource, hpage] at htext
  have hmarkup : [Node.interpolation "markup"] <:+: Target.mainNodes false .html :=
    ⟨Target.Html.componentNodes.take 2, Target.Html.componentNodes.drop 3, rfl⟩
  obtain ⟨before, written, after, hwritten, htext⟩ := exists_written hmarkup htext
  have hmem : ("markup", Json.str v.parts.markup) ∈ v.toContext := by
    simp [View.toContext_eq, Parts.toContext]
  have hresolved : fields.get? "markup" = some (.str v.parts.markup) ∧
      resolvePath "markup" (.obj fields) = .ok (.str v.parts.markup) :=
    resolve_context hfields "markup" rfl (by decide) hmem
  rw [renderAll_singleton, Node.render, hresolved.2] at hwritten
  cases hwritten
  obtain ⟨earlier, later, hpart⟩ := hpart
  refine lineHas_tidy hsolid (before ++ earlier) (later ++ after) ?_
  rw [htext, show (stringify (.str v.parts.markup)).toList = v.parts.markup.toList from rfl, ← hpart]
  simp only [List.append_assoc]

namespace Registry

/-- The three files of code refer to each other, if the code is not made smaller and the default name
has the characters of names, as identifiers do. The style file is not empty if and only if the context
has styles, and then the main file has the line that refers to it by its name. Otherwise the main file
does not name the style file unless a text does that was given. The index file has the line that refers
to the main file, by its whole name or without its extension. -/
theorem files_refer {folder : Folder} {frameworks active : Json} {settings : Settings} {r : Registry}
    (hr : create folder frameworks settings active = .ok r) {s : Subject} (hs : s.Standing)
    {o : Options} (ho : o.optimize.isGiven = false) {g : Generator}
    (hg : r.resolve o.framework = .ok g) {default : String}
    (hdefault : g.config.defaultName = .str default) (hnamed : Name.IsNamed default) {code : Code}
    (hcode : (r.generate s o).2 = .ok code) :
    ∃ fields rules main styles index name stem extension,
      g.context s o = .ok fields ∧ fields.get? "styles" = some (.arr rules) ∧
      fields.get? "componentName" = some (.str name) ∧
      code.files = [("main", main), ("styles", styles), ("index", index)] ∧
      (styles.content ≠ "" ↔ rules ≠ []) ∧
      (styles.content ≠ "" → HasLine main.content
        (Target.styleLine g.framework s.isPage o.isModule.isGiven styles.name)) ∧
      (styles.content = "" → (∀ t, s.Shows t → Unnamed styles.name g.framework t o g.config) →
        ¬ NamesFile styles.name main.content) ∧
      main.name = stem ++ "." ++ extension ∧ '.' ∉ extension.toList ∧
      HasLine index.content (Target.indexLine g.framework name stem extension) := by
  have hmem := mem_of_resolve hg
  have hstocks := stocks_create hr g hmem
  obtain ⟨f, config, rfl, -⟩ := id hstocks
  rw [framework_ofFramework]
  obtain ⟨g, v, hg', hview, hfiles, -⟩ := files_of_generate ho hcode
  cases hg.symm.trans hg'
  obtain ⟨name, hname, hchars, hnames⟩ := Generator.exists_viewName hs hview hdefault hnamed
  obtain ⟨stem, extension, base, hformed⟩ : ∃ stem extension base,
      v.files.Formed f stem extension base := by
    rw [hnames]
    exact FileNames.exists_formed hchars f o
  obtain ⟨fields, main, styles, index, hfields, -, hstyles, hindex, hcoded⟩ :=
    Generator.files_eq_ok_iff.1 hfiles
  obtain ⟨hstyleName, hwritten⟩ := Generator.styles_written_iff hstocks hfields hstyles
  have hoptions : v.page = s.isPage ∧ v.isModule = o.isModule := by
    obtain ⟨p, -, rfl⟩ := map_eq_ok_iff.1 hview
    exact ⟨rfl, rfl⟩
  have hmain : code.files.get? "main" = some main := by
    rw [hcoded, Table.get?_cons, if_pos rfl]
  have hmainName : main.name = v.files.main := by
    obtain ⟨fields, source, text, -, -, -, hwhole⟩ := Generator.exists_main hstocks hfiles
    cases hmain.symm.trans hwhole
    rfl
  have hcontext : (Generator.ofFramework f config).context s o = .ok fields :=
    bind_eq_ok_iff.2 ⟨v, hview, mapError_eq_ok_iff.2 hfields⟩
  have hcomponentName : ("componentName", Json.str name) ∈ v.toContext := by
    rw [← hname, View.toContext_eq, Parts.toContext]
    exact List.mem_cons_self
  have hget : fields.get? "componentName" = some (.str name) ∧
      resolvePath "componentName" (.obj fields) = .ok (.str name) :=
    Generator.resolve_context hfields "componentName" rfl (by cases f <;> decide) hcomponentName
  refine ⟨fields, _, main, styles, index, name, stem, extension, hcontext,
    (Generator.resolve_styles hfields).1, hget.1, hcoded, ?_, fun hne => ?_, fun hempty hunnamed => ?_,
    ?_, hformed.point_notMem, ?_⟩
  · rw [hwritten]
    simp
  · have honeLine : OneLine v.files.styles := by
      rw [hformed.styles]
      exact hformed.base_text.oneLine.append (by decide)
    obtain ⟨main', hmain', hline⟩ := Generator.main_refers hstocks (hwritten.1 hne) honeLine hfiles
    cases hmain.symm.trans hmain'
    rwa [← hoptions.1, ← hoptions.2, hstyleName]
  · have hstylesNil : v.parts.styles = [] := by
      by_contra hne
      exact hwritten.2 hne hempty
    have hfile : styles.name = base ++ ".css" := hstyleName.trans hformed.styles
    obtain ⟨main', hmain', havoids⟩ := main_unstyled hr hmem hs hview hdefault hnamed
      (fun t ht => (hunnamed t ht).unreferring hformed.base_text hfile) hformed.point_mem
      hstylesNil hfiles
    cases hmain.symm.trans hmain'
    exact (avoids_iff_not_namesFile hfile).1 havoids
  · rw [hmainName, hformed.main]
  · exact Generator.index_refers hstocks hname hchars hformed hfields hindex

def selfLink : Tree := .node ⟨"a", "a", [("href", .str "./GeneratedComponent.html")], [], .null⟩ []

theorem files_refer_selfLink :
    ∃ r code main styles index, create {} (.arr [.str "html"]) (.layers .null) .null = .ok r ∧
      (r.generate (.component (.tree selfLink)) {}).2 = .ok code ∧
      code.files = [("main", main), ("styles", styles), ("index", index)] ∧
      main.name = "GeneratedComponent.html" ∧ ¬ NamesFile "GeneratedComponent.css" main.content ∧
      HasLine index.content "    <li><a href=\"./GeneratedComponent.html\">" := by
  let check (g : Generator) (v : View) : Bool :=
    g.config.defaultName.isText "GeneratedComponent" && v.parts.styles.isEmpty &&
      v.files.main == "GeneratedComponent.html" && v.files.styles == "GeneratedComponent.css" &&
      (givenTexts selfLink {} g.config).all fun text => !decide (NamesFile "GeneratedComponent.css" text)
  obtain ⟨r, g, v, code, main, styles, index, hr, hg, hframework, hview, hcheck, hcode, hfiles, hmain,
      hstyleName, hwritten⟩ :=
    Generator.exists_made .html (.layers .null) (s := .component (.tree selfLink)) (o := {}) check rfl
      (by decide +kernel)
  simp only [check, Bool.and_eq_true, beq_iff_eq, List.all_eq_true, Bool.not_eq_true',
    decide_eq_false_iff_not, List.isEmpty_iff] at hcheck
  obtain ⟨⟨⟨⟨hdefault, hstyles⟩, hmainName⟩, hstyleFile⟩, hgiven⟩ := hcheck
  have hs : Subject.Standing (.component (.tree selfLink)) := fun a ha => by cases ha
  obtain ⟨fields, rules, main', styles', index', name, stem, extension, -, -, -, hfiles', -, -, hempty,
      hname, hpoint, hindex⟩ :=
    files_refer hr hs rfl hg (Json.eq_str_of_isText hdefault) (by decide) hcode
  rw [hfiles] at hfiles'
  cases hfiles'
  have hunnamed : ∀ t, Subject.Shows (.component (.tree selfLink)) t →
      Unnamed styles.name g.framework t {} g.config := by
    intro t ht
    obtain rfl := ht.of_toTree rfl
    rw [hstyleName, hstyleFile]
    exact ⟨hgiven, fun _ => by decide +kernel⟩
  have hnone := hempty (by by_contra hne; exact hwritten.1 hne hstyles) hunnamed
  rw [hstyleName, hstyleFile] at hnone
  refine ⟨r, code, main, styles, index, hr, hcode, hfiles, hmain.trans hmainName, hnone, ?_⟩
  rw [hframework, Target.indexLine, Target.dropsExtension, if_neg (by decide), ← hname, hmain,
    hmainName] at hindex
  exact hindex

def bound (name : String) : Tree :=
  .node ⟨"a", "div", [(name, .obj [("$bind", .str "x")])], [], .null⟩ []

/-- A property name that is written in small letters refers to the style file, which is empty, although
no text does that was given. -/
theorem lowered_reference :
    ∃ r g code main styles index, create {} (.arr [.str "html"])
        (.layers (.obj [("default_component_name", .str "app")])) .null = .ok r ∧
      r.resolve none = .ok g ∧
      (r.generate (.component (.tree (bound "<LINK REL=\"STYLESHEET\" HREF=\"./APP.CSS\">"))) {}).2 =
        .ok code ∧
      code.files = [("main", main), ("styles", styles), ("index", index)] ∧
      styles.name = "app.css" ∧ styles.content = "" ∧
      LineHas main.content (Target.styleLine .html false false "app.css") ∧
      ∀ text ∈ givenTexts (bound "<LINK REL=\"STYLESHEET\" HREF=\"./APP.CSS\">") {} g.config,
        ¬ NamesFile "app.css" text := by
  let tree := bound "<LINK REL=\"STYLESHEET\" HREF=\"./APP.CSS\">"
  let check (g : Generator) (v : View) : Bool :=
    v.parts.styles.isEmpty && v.files.styles == "app.css" && !v.page &&
      hasPart (Target.styleLine .html false false "app.css").toList v.parts.markup.toList &&
      (givenTexts tree {} g.config).all fun text => !decide (NamesFile "app.css" text)
  obtain ⟨r, g, v, code, main, styles, index, hr, hg, hframework, hview, hcheck, hcode, hfiles, -, hname,
      hwritten⟩ :=
    Generator.exists_made .html (.layers (.obj [("default_component_name", .str "app")]))
      (s := .component (.tree tree)) (o := {}) check rfl (by decide +kernel)
  simp only [check, Bool.and_eq_true, beq_iff_eq, List.all_eq_true, Bool.not_eq_true',
    decide_eq_false_iff_not, List.isEmpty_iff, hasPart_iff] at hcheck
  obtain ⟨⟨⟨⟨hstyles, hstyleFile⟩, hpage⟩, hpart⟩, hgiven⟩ := hcheck
  have hempty : styles.content = "" := by
    by_contra hne
    exact hwritten.1 hne hstyles
  refine ⟨r, g, code, main, styles, index, hr, hg, hcode, hfiles, hname.trans hstyleFile, hempty, ?_,
    hgiven⟩
  have hstocks := stocks_create hr g (mem_of_resolve hg)
  obtain ⟨f, config, rfl, -⟩ := id hstocks
  rw [framework_ofFramework] at hframework
  subst hframework
  obtain ⟨main', hmain, hparts⟩ :=
    Generator.main_hasMarkup hstocks hpage (files_of_view hg hview rfl hcode)
  rw [hfiles, Table.get?_cons, if_pos rfl] at hmain
  cases hmain
  exact hparts _ (by decide) hpart

end Registry

end ViewWriter
