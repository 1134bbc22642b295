import ViewWriter.Proofs.Generator.Serving
import ViewWriter.Proofs.Generator.Subjects
import ViewWriter.Proofs.Name.Case
import ViewWriter.Proofs.Target.Templates
import ViewWriter.Proofs.Template.Parts

/-! The main files of components and pages. They have a line for every import of their view. -/

namespace ViewWriter

open ViewWriter.Text ViewWriter.Schema ViewWriter.Analysis ViewWriter.Template
  ViewWriter.Template.Source

/-- A line of the text imports the name. -/
def ImportsName (content name : String) : Prop :=
  ∃ l ∈ lines content.toList, importHead name <+: l

/-- The frameworks whose markup takes components by their names. -/
inductive BindsByName : Framework → Prop
  | react : BindsByName .react
  | vue : BindsByName .vue

namespace Generator

variable {f : Framework} {config : Config} {v : View} {fields : Table Json}

lemma resolve_imports (hf : BindsByName f)
    (h : (ofFramework f config).contextOf v = .ok fields) :
    resolvePath "imports" (.obj fields) = .ok (objects (v.parts.imports.map (·.toFields))) := by
  have hmem : ("imports", objects (v.parts.imports.map (·.toFields))) ∈ v.toContext := by
    simp [View.toContext_eq, Parts.toContext]
  refine (resolve_context h "imports" rfl ?_ hmem).2
  cases hf <;> decide

lemma compile_reactMain {page : Bool} {source : String}
    (h : Json.member (Target.ofFramework .react).templates (if page then "page" else "component") =
      .str source) : compile source = Target.React.mainNodes page := by
  cases page with
  | false =>
    obtain rfl : ofLines Target.React.componentLines = source := Json.str.inj h
    exact Target.React.compile_component
  | true =>
    obtain rfl : ofLines Target.React.pageLines = source := Json.str.inj h
    exact Target.React.compile_page

lemma standsAt_importLoop (hf : BindsByName f) {page : Bool} {source : String}
    (h : Json.member (Target.ofFramework f).templates (if page then "page" else "component") =
      .str source) : standsAt [importLoop] true (compile source) = true := by
  cases hf with
  | react =>
    rw [compile_reactMain h]
    exact Target.React.standsAt_importLoop page
  | vue =>
    obtain rfl : ofLines Target.Vue.componentLines = source := by cases page <;> exact Json.str.inj h
    exact Target.Vue.component_checked.1

/-- Every import without a line break in its name has a line in the main file. -/
lemma files_main {r : Registry} {files : Table Artifact} (hf : BindsByName f)
    (hr : r.Stocks (ofFramework f config))
    (h : (ofFramework f config).files (r.freeze.engine (ofFramework f config)) v = .ok files) :
    ∃ main, files.get? "main" = some main ∧
      ∀ i ∈ v.parts.imports, '\n' ∉ i.name.toList → ImportsName main.content i.name := by
  obtain ⟨fields, source, text, hfields, hsource, htext, hmain⟩ := exists_main hr h
  exact ⟨_, hmain, fun i hi =>
    exists_importLine (standsAt_importLoop hf hsource) (resolve_imports hf hfields) htext hi⟩

/-! A component of the first framework is written whatever its view. -/

lemma exists_files {r : Registry} (hr : r.Stocks (ofFramework .react config))
    (hv : v.page = false) :
    ∃ files, (ofFramework .react config).files (r.freeze.engine (ofFramework .react config)) v =
      .ok files := by
  obtain ⟨fields, hfields⟩ : ∃ fields, (ofFramework .react config).contextOf v = .ok fields :=
    ⟨_, rfl⟩
  have hcomponent : areUnfailing (compile (ofLines Target.React.componentLines)) = true := by
    rw [Target.React.compile_component]
    exact Target.React.areUnfailing_component
  obtain ⟨main, hmain⟩ := exists_artifact hr "component" (by decide) rfl hcomponent fields
    v.files.main
  obtain ⟨styles, hstyles⟩ := exists_artifact hr "styles" (by decide) rfl
    Target.areUnfailing_stylesheet fields v.files.styles
  obtain ⟨index, hindex⟩ := exists_artifact hr "index" (by decide) rfl
    Target.areUnfailing_reactIndex fields v.files.index
  refine ⟨_, files_eq_ok_iff.2 ⟨fields, main, styles, index, hfields, ?_, hstyles, hindex, rfl⟩⟩
  rw [hv]
  exact hmain

lemma generate_of_files {g : Generator} {engine : Engine} {s : Subject} {o : Options}
    {files : Table Artifact} {warnings : List String} (hview : g.view s o = .ok v)
    (hfiles : g.files engine v = .ok files)
    (hwarnings : g.config.warnings g.framework.key = .ok warnings) (ho : o.optimize.isGiven = false) :
    ∃ code, g.generate engine s o = .ok code ∧ code.files = files ∧ code.framework = g.framework := by
  have hlift : (liftM (g.config.warnings g.framework.key) : Except Failure (List String)) =
      .ok warnings := mapError_eq_ok_iff.2 hwarnings
  let code : Code := ⟨files, g.framework, warnings, g.facts v⟩
  have hwritten : g.write engine v = .ok code :=
    bind_eq_ok_iff.2 ⟨files, hfiles, bind_eq_ok_iff.2 ⟨warnings, hlift, rfl⟩⟩
  refine ⟨code, ?_, rfl, rfl⟩
  rw [generate, hview]
  refine bind_eq_ok_iff.2 ⟨v, rfl, bind_eq_ok_iff.2 ⟨code, hwritten, ?_⟩⟩
  rw [if_neg (by simp [ho])]
  rfl

lemma exists_generate {r : Registry} (hr : r.Stocks (ofFramework .react config)) {s : Subject}
    {o : Options} (hs : s.isPage = false) (ho : o.optimize.isGiven = false)
    (hview : (ofFramework .react config).view s o = .ok v)
    (hwarnings : ∃ warnings, config.warnings Framework.react.key = .ok warnings) :
    ∃ code, (ofFramework .react config).generate (r.freeze.engine (ofFramework .react config)) s o =
      .ok code ∧ code.framework = .react := by
  obtain ⟨p, -, hp⟩ := map_eq_ok_iff.1 hview
  have hpage : v.page = false := by rw [← hp]; exact hs
  obtain ⟨files, hfiles⟩ := exists_files hr hpage
  obtain ⟨warnings, hwarnings⟩ := hwarnings
  obtain ⟨code, hcode, -, hframework⟩ := generate_of_files hview hfiles hwarnings ho
  exact ⟨code, hcode, hframework⟩

/-- Whether the registry of the first framework alone has a view of a subject that passes a check. -/
def viewed (s : Subject) (o : Options) (check : Registry → Generator → View → Bool) : Bool :=
  (Registry.create {} (.arr [.str "react"]) (.layers .null) .null).toOption.any fun r =>
    (r.resolve o.framework).toOption.any fun g =>
      g.framework == .react && (g.view s o).toOption.any (check r g) &&
        (g.config.warnings Framework.react.key).toOption.isSome

lemma exists_code {s : Subject} {o : Options} (check : Registry → Generator → View → Bool)
    (hs : s.isPage = false) (ho : o.optimize.isGiven = false) (h : viewed s o check = true) :
    ∃ r g v code, Registry.create {} (.arr [.str "react"]) (.layers .null) .null = .ok r ∧
      r.resolve o.framework = .ok g ∧ g.view s o = .ok v ∧ check r g v = true ∧
      (r.generate s o).2 = .ok code ∧ g.framework = .react ∧ code.framework = .react := by
  simp only [viewed, Option.any_eq_true, toOption_eq_some_iff, Bool.and_eq_true, beq_iff_eq,
    Option.isSome_iff_exists] at h
  obtain ⟨r, hr, g, hg, ⟨hframework, v, hv, hcheck⟩, hwarnings⟩ := h
  have hstocks := Registry.stocks_create hr g (Registry.mem_of_resolve hg)
  obtain ⟨f, config, rfl, -⟩ := id hstocks
  rw [Registry.framework_ofFramework] at hframework
  subst hframework
  obtain ⟨code, hcode, hreact⟩ := exists_generate hstocks hs ho hv hwarnings
  refine ⟨r, _, v, code, hr, hg, hv, hcheck, ?_, rfl, hreact⟩
  rw [Registry.generate, hg]
  exact hcode

/-- What is written for a component of the first framework before it is tidied, computed. -/
def mainText (r : Registry) (g : Generator) (v : View) : Option String :=
  (g.contextOf v).toOption.bind fun fields =>
    writtenWithin (r.store.helpersFor (some Framework.react.key)) 100 (.obj fields)
      Target.React.componentNodes

/-- Where there is a view of a component, there is code with the text that is computed for it. -/
lemma exists_main_code {s : Subject} {o : Options} (check : View → Bool) (text : String)
    (hs : s.isPage = false) (ho : o.optimize.isGiven = false)
    (h : viewed s o (fun r g v => check v && mainText r g v == some text) = true) :
    ∃ r g v code main, Registry.create {} (.arr [.str "react"]) (.layers .null) .null = .ok r ∧
      r.resolve o.framework = .ok g ∧ g.framework = .react ∧ g.view s o = .ok v ∧ check v = true ∧
      (r.generate s o).2 = .ok code ∧ code.files.get? "main" = some main ∧
      main.content = tidy text := by
  obtain ⟨r, g, v, code, hr, hg, hview, hcheck, hcode, hframework, -⟩ := exists_code _ hs ho h
  simp only [Bool.and_eq_true, beq_iff_eq, mainText, Option.bind_eq_some_iff,
    toOption_eq_some_iff] at hcheck
  obtain ⟨hcheck, fields, hfields, htext⟩ := hcheck
  have hfiles := Registry.files_of_view hg hview ho hcode
  have hstocks := Registry.stocks_create hr g (Registry.mem_of_resolve hg)
  obtain ⟨f, config, rfl, -⟩ := id hstocks
  rw [Registry.framework_ofFramework] at hframework
  subst hframework
  have hpage : v.page = false := by
    obtain ⟨p, -, hp⟩ := map_eq_ok_iff.1 hview
    rw [← hp]
    exact hs
  obtain ⟨fields', source, text', hfields', hsource, htext', hmain⟩ := exists_main hstocks hfiles
  cases hfields.symm.trans hfields'
  rw [hpage] at hsource
  obtain rfl : ofLines Target.React.componentLines = source := Json.str.inj hsource
  rw [Target.React.compile_component] at htext'
  cases (renderAll_of_written htext).symm.trans htext'
  exact ⟨r, _, v, code, _, hr, hg, rfl, hview, hcheck, hcode, hmain, rfl⟩

end Generator

end ViewWriter

/-! Tags and the names that are bound for them. A tag is spelled as the type of its node and an import
in component form, so that a type is bound if it is declared or has the form of a component. -/

namespace ViewWriter

open ViewWriter.Text ViewWriter.Schema ViewWriter.Analysis ViewWriter.Template

/-- The part of a tag that is looked up: what stands before the first point. -/
def boundName (tag : String) : String := String.ofList (cut '.' tag.toList).1

namespace Generator

lemma tagName_eq {f : Framework} (hf : BindsByName f) {config : Config} {o : Options}
    {d : Markup.Dialect} (h : (ofFramework f config).target.dialect config o = .ok d)
    (node : Record) : d.tagName node = node.type := by
  cases hf with
  | react =>
    obtain rfl := Except.ok.inj h
    rfl
  | vue =>
    obtain rfl := Except.ok.inj h
    rfl

lemma binds_of_pascal {records : List Record} {node : Record} (hnode : node ∈ records)
    (h : Name.isPascal node.type = true) : Binds records node.type := by
  have hcustom : node.isCustom = true := by
    have hupper := Name.isUppercase_of_pascal h
    rw [Record.isCustom]
    cases htype : node.type.toList <;> simp_all
  have hbinds := Binds.component hnode hcustom
  rwa [componentForm, Name.component_of_pascal h] at hbinds

/-- The markup of a main file is that of the subject's tree, and its tags are the types of the nodes.
The name of a tag is imported if and only if a node declares it or a custom node has a type of which
it is the component form. If it is and has no line break, then a line of the main file imports it.
This holds of every type that is its own component form. -/
theorem main_binds_tags {folder : Folder} {frameworks active : Json} {settings : Registry.Settings}
    {r : Registry} (hr : Registry.create folder frameworks settings active = .ok r) {s : Subject}
    (hs : s.Standing) {o : Options} (ho : o.optimize.isGiven = false) {code : Code}
    (hcode : (r.generate s o).2 = .ok code) (hf : BindsByName code.framework) :
    ∃ g v t d main, r.resolve o.framework = .ok g ∧ g.view s o = .ok v ∧ s.Shows t ∧
      g.target.dialect g.config o = .ok d ∧
      (∃ unit classes, v.parts.markup = d.render unit classes t) ∧
      code.files.get? "main" = some main ∧
      ∀ node ∈ t.records, d.tagName node = node.type ∧
        ((∃ i ∈ v.parts.imports, i.name = boundName node.type) ↔
          Binds t.records (boundName node.type)) ∧
        (Binds t.records (boundName node.type) → '\n' ∉ (boundName node.type).toList →
          ImportsName main.content (boundName node.type)) ∧
        (Name.isPascal node.type → ImportsName main.content node.type) := by
  obtain ⟨g, v, hg, hview, hfiles, hframework⟩ := Registry.files_of_generate ho hcode
  have hstocks := Registry.stocks_create hr g (Registry.mem_of_resolve hg)
  obtain ⟨f, config, rfl, -⟩ := id hstocks
  rw [hframework, Registry.framework_ofFramework] at hf
  obtain ⟨p, hp, rfl⟩ := map_eq_ok_iff.1 hview
  obtain ⟨t, d, unit, classes, ht, hd, hmarkup, himports⟩ := parts_tree hs hp
  obtain ⟨main, hmain, hlines⟩ := files_main hf hstocks hfiles
  have hline {name : String} (hbinds : Binds t.records name) (hbreak : '\n' ∉ name.toList) :
      ImportsName main.content name := by
    obtain ⟨i, hi, rfl⟩ := (himports name).2 hbinds
    exact hlines i hi hbreak
  refine ⟨_, _, t, d, main, hg, hview, ht, hd, ⟨unit, classes, hmarkup⟩, hmain, fun node hnode => ?_⟩
  refine ⟨tagName_eq hf hd node, himports _, hline, fun hpascal => ?_⟩
  exact hline (binds_of_pascal hnode hpascal) (Name.notMem_of_pascal hpascal (by decide))

def card : Tree :=
  .node ⟨"a", "Card", [("imports", .obj [("Menu", .str "menus")])], [], .null⟩
    [.node ⟨"b", "Menu.Item", [], [], .null⟩ []]

lemma generate_card :
    ∃ r code, Registry.create {} (.arr [.str "react"]) (.layers .null) .null = .ok r ∧
      (r.generate (.component (.tree card)) {}).2 = .ok code ∧ code.framework = .react := by
  obtain ⟨r, -, -, code, hr, -, -, -, hcode, -, hreact⟩ :=
    exists_code (s := .component (.tree card)) (o := {}) (fun _ _ _ => true) rfl rfl (by decide +kernel)
  exact ⟨r, code, hr, hcode, hreact⟩

lemma binds_menu : Binds card.records "Menu" := by
  have hentry : Table.ofEntries [("name", .str "Menu"), ("source", .str "menus")] ∈
      declared card.records "imports" "name" "source" :=
    List.mem_flatMap.2 ⟨_, List.mem_cons_self, List.mem_cons_self⟩
  exact .declared hentry ⟨by decide +kernel, ⟨"menus", by decide +kernel⟩, by decide +kernel⟩

lemma main_binds_tags_card :
    ∃ r code main, Registry.create {} (.arr [.str "react"]) (.layers .null) .null = .ok r ∧
      (r.generate (.component (.tree card)) {}).2 = .ok code ∧ BindsByName code.framework ∧
      code.files.get? "main" = some main ∧ ImportsName main.content "Card" ∧
      ImportsName main.content "Menu" := by
  obtain ⟨r, code, hr, hcode, hreact⟩ := generate_card
  have hf : BindsByName code.framework := hreact ▸ .react
  have hs : Subject.Standing (.component (.tree card)) := fun a ha => by cases ha
  obtain ⟨g, v, t, d, main, -, -, ht, -, -, hmain, hnodes⟩ :=
    main_binds_tags hr hs rfl hcode hf
  obtain rfl := ht.of_toTree rfl
  refine ⟨r, code, main, hr, hcode, hf, hmain, ?_, ?_⟩
  · obtain ⟨-, -, -, hpascal⟩ := hnodes _ List.mem_cons_self
    exact hpascal (by decide +kernel)
  · obtain ⟨-, -, hline, -⟩ := hnodes _ (List.mem_cons_of_mem _ List.mem_cons_self)
    have hbound : boundName "Menu.Item" = "Menu" := by decide +kernel
    simp only [hbound] at hline
    exact hline binds_menu (by decide)

/-- A type with an acronym is written as it is and imported in another spelling. -/
lemma unbound_acronym :
    ∃ p, ofComponent (.react false) "  " {} (.tree (.node ⟨"a", "HTMLBlock", [], [], .null⟩ [])) =
        .ok p ∧
      p.markup = "<HTMLBlock />" ∧ p.imports.map (·.name) = ["HtmlBlock"] ∧
      boundName "HTMLBlock" ∉ p.imports.map (·.name) := by
  have hparts : ((ofComponent (.react false) "  " {}
      (.tree (.node ⟨"a", "HTMLBlock", [], [], .null⟩ []))).toOption.any fun p =>
        p.markup == "<HTMLBlock />" && p.imports.map (·.name) == ["HtmlBlock"]) = true := by
    decide +kernel
  simp only [Option.any_eq_true, toOption_eq_some_iff, Bool.and_eq_true, beq_iff_eq] at hparts
  obtain ⟨p, hp, hmarkup, hnames⟩ := hparts
  exact ⟨p, hp, hmarkup, hnames, by rw [hnames]; decide +kernel⟩

end Generator

end ViewWriter
