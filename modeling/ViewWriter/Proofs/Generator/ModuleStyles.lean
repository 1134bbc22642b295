import ViewWriter.Proofs.Analysis.Styles
import ViewWriter.Proofs.Generator.MainFile
import ViewWriter.Proofs.Generator.Subjects
import ViewWriter.Proofs.Markup.ClassAttribute
import ViewWriter.Proofs.Text.Blocks

/-! Styles as modules. A node looks up its class if it is styled at all, and the main file has the
module if a declaration of some node is not empty. -/

namespace ViewWriter

open ViewWriter.Text ViewWriter.Schema ViewWriter.Analysis ViewWriter.Template
  ViewWriter.Template.Source

section Parts

variable {helpers : Table Helper} {context : Json} {styled modules : Bool} {file : String}

/-- What a template knows of the styles of its view. -/
structure StyleFacts (context : Json) (styled modules : Bool) (file : String) : Prop where
  styled : (Condition.holds "hasStyles").eval context = .ok styled
  modules : (Condition.holds "isModule").eval context = .ok modules
  file : resolvePath "styleFile" context = .ok (.str file)

/-- How a component of the first framework imports its styles. -/
def styleImportText (styled modules : Bool) (file : String) : String :=
  if styled then (if modules then "import styles from './" else "import './") ++ (file ++ "';\n")
  else ""

def styleElementText (styled modules : Bool) (file : String) : String :=
  if styled then
    "\n" ++ ((if modules then "<style module src=\"./" else "<style scoped src=\"./") ++
      (file ++ "\"></style>\n"))
  else ""

lemma render_styleImport (h : StyleFacts context styled modules file) :
    renderAll helpers context [Target.React.styleImport] =
      .ok (styleImportText styled modules file) := by
  cases styled <;> cases modules <;>
    simp [Target.React.styleImport, renderAll, Node.render, h.styled, h.modules, h.file, stringify,
      styleImportText, bind, Except.bind, pure, Except.pure, Except.map]

lemma render_styleElement (h : StyleFacts context styled modules file) :
    renderAll helpers context [Target.Vue.styleElement] =
      .ok (styleElementText styled modules file) := by
  cases styled <;> cases modules <;>
    simp [Target.Vue.styleElement, renderAll, Node.render, h.styled, h.modules, h.file, stringify,
      styleElementText, bind, Except.bind, pure, Except.pure, Except.map, ← String.append_assoc]

end Parts

/-- A line of the text has a file name between `start` and `close`, where the name is on one line. -/
def HasFileLine (content start file close : String) : Prop :=
  HasLine content start ∧ (OneLine file → HasLine content (start ++ file ++ close))

lemma hasFileLine_tidy {start file close text : String} {before : List Char}
    (hbefore : AtLineStart before) (hstart : IsSolid start.toList) (hclose : IsSolid close.toList)
    (after : List Char) (htext : text.toList = before ++ ((start ++ file ++ close).toList ++ after)) :
    HasFileLine (tidy text) start file close := by
  refine ⟨hasLine_tidy hbefore hstart ((file ++ close).toList ++ after) ?_, fun hfile => ?_⟩
  · rw [htext]
    simp only [String.toList_append, List.append_assoc]
  · refine hasLine_tidy hbefore ?_ after htext
    rw [String.toList_append]
    exact hclose.prepend (OneLine.append hstart.unbroken hfile)

namespace Generator

variable {f : Framework} {config : Config} {v : View} {fields : Table Json} {r : Registry}
  {files : Table Artifact}

lemma styleFacts_of_eval (h : (ofFramework f config).contextOf v = .ok fields) {modules : Bool}
    (hmodules : (Condition.holds "isModule").eval (.obj fields) = .ok modules) :
    StyleFacts (.obj fields) (!v.parts.styles.isEmpty) modules v.files.styles := by
  have hkeys : "hasStyles" ∉ Target.additionKeys f ∧ "styleFile" ∉ Target.additionKeys f := by
    cases f <;> decide
  have hmem : ("hasStyles", Json.bool !v.parts.styles.isEmpty) ∈ v.toContext ∧
      ("styleFile", Json.str v.files.styles) ∈ v.toContext := by
    simp [View.toContext_eq, Parts.toContext]
  exact
    { styled := eval_context h ⟨by rfl, by rfl, by rfl⟩ (by rfl) hkeys.1 hmem.1
      modules := hmodules
      file := (resolve_context h "styleFile" rfl hkeys.2 hmem.2).2 }

lemma eval_isModule (hf : f ≠ .html) (h : (ofFramework f config).contextOf v = .ok fields) :
    (Condition.holds "isModule").eval (.obj fields) = .ok v.isModule.isGiven := by
  have hkey : "isModule" ∉ Target.additionKeys f := by
    revert hf
    cases f <;> decide
  refine eval_context h ⟨by rfl, by rfl, by rfl⟩ (by rfl) hkey ?_
  simp [View.toContext_eq]

/-- The main file has the module of a view with rules. -/
lemma main_hasModule (hf : BindsByName f) (hr : r.Stocks (ofFramework f config))
    (hmodule : v.isModule.isGiven = true) (hstyles : v.parts.styles ≠ [])
    (h : (ofFramework f config).files (r.freeze.engine (ofFramework f config)) v = .ok files) :
    ∃ main, files.get? "main" = some main ∧
      (f = .react → HasFileLine main.content "import styles from './" v.files.styles "';") ∧
      (f = .vue →
        HasFileLine main.content "<style module src=\"./" v.files.styles "\"></style>") := by
  obtain ⟨fields, source, text, hfields, hsource, htext, hmain⟩ := exists_main hr h
  have hne : f ≠ .html := by
    rintro rfl
    cases hf
  have hfacts := styleFacts_of_eval hfields (eval_isModule hne hfields)
  rw [hmodule, List.isEmpty_eq_false_iff.2 hstyles] at hfacts
  refine ⟨_, hmain, ?_, ?_⟩
  · rintro rfl
    rw [compile_reactMain hsource] at htext
    have hstands : standsAt [Target.React.styleImport] true (Target.React.mainNodes v.page) = true := by
      cases v.page <;> decide
    obtain ⟨before, written, after, hwritten, htext, hbefore⟩ :=
      exists_writtenLine hstands htext
    rw [render_styleImport hfacts] at hwritten
    cases hwritten
    refine hasFileLine_tidy hbefore (by decide) (by decide) ('\n' :: after) ?_
    rw [htext]
    simp [styleImportText]
  · rintro rfl
    obtain rfl : ofLines Target.Vue.componentLines = source := by
      cases hpage : v.page <;> rw [hpage] at hsource <;> exact Json.str.inj hsource
    obtain ⟨before, written, after, hwritten, htext⟩ :=
      exists_written Target.Vue.component_checked.2 htext
    rw [render_styleElement hfacts] at hwritten
    cases hwritten
    -- the element brings its own line break with it
    have hbefore : AtLineStart (before ++ ['\n']) := .inr ⟨before, rfl⟩
    refine hasFileLine_tidy hbefore (by decide) (by decide) ('\n' :: after) ?_
    rw [htext]
    simp [styleElementText]

end Generator

namespace Registry

/-- The markup looks up a class for every node that is styled. There are rules if and only if some
value of a style is not empty, and where there are, the main file has the module of the style
file. -/
theorem module_lookups_backed {folder : Folder} {frameworks active : Json} {settings : Settings}
    {r : Registry} (hr : create folder frameworks settings active = .ok r) {s : Subject}
    (hs : s.Standing) {o : Options} (hmodule : o.isModule.isGiven = true) {g : Generator}
    (hg : r.resolve o.framework = .ok g) (hf : BindsByName g.framework) {v : View}
    (hview : g.view s o = .ok v) :
    ∃ t d unit classes, s.Shows t ∧ g.target.dialect g.config o = .ok d ∧
      v.parts.markup = d.render unit classes t ∧
      (∀ node ∈ t.records,
        ((∃ look, d.lookup? classes node = some look) ↔ node.style ≠ []) ∧
        ∀ look, d.lookup? classes node = some look → look.toList <:+: v.parts.markup.toList) ∧
      (v.parts.styles ≠ [] ↔ ∃ node ∈ t.records, ∃ e ∈ node.style, isEmptyValue e.2 = false) ∧
      (v.parts.styles ≠ [] → ∀ files, g.files (r.freeze.engine g) v = .ok files →
        ∃ main, files.get? "main" = some main ∧
          (g.framework = .react →
            HasFileLine main.content "import styles from './" v.files.styles "';") ∧
          (g.framework = .vue →
            HasFileLine main.content "<style module src=\"./" v.files.styles "\"></style>")) ∧
      (o.optimize.isGiven = false → ∀ code, (r.generate s o).2 = .ok code →
        g.files (r.freeze.engine g) v = .ok code.files) := by
  have hstocks := stocks_create hr g (mem_of_resolve hg)
  obtain ⟨f, config, rfl, -⟩ := id hstocks
  rw [framework_ofFramework] at hf ⊢
  obtain ⟨p, hp, rfl⟩ := map_eq_ok_iff.1 hview
  obtain ⟨t, d, unit, classes, ht, hd, hparts⟩ := Generator.exists_partsOf hs hp
  have hclass : ∃ write, d.moduleClass = some write := by
    cases hf with
    | react =>
      obtain rfl := Except.ok.inj hd
      exact ⟨_, if_pos hmodule⟩
    | vue =>
      obtain rfl := Except.ok.inj hd
      exact ⟨_, if_pos hmodule⟩
  obtain ⟨write, hwrite⟩ := hclass
  refine ⟨t, d, unit, classes, ht, hd, hparts.markup, fun node hnode => ⟨?_, fun look hlook => ?_⟩,
    ?_, fun hstyles files hfiles => ?_, fun ho code => files_of_view hg hview ho⟩
  · rw [← exists_styleClass_iff hparts.classNames hparts.distinct hnode]
    simp [Markup.Dialect.lookup?, hwrite]
  · have hmarkup := Markup.Dialect.lookup_isInfix_render unit hnode hlook
    rwa [← hparts.markup] at hmarkup
  · have hstyles : p.styles = styleRules config.cssUnit.display classes t.records := hparts.styles
    change p.styles ≠ [] ↔ _
    rw [hstyles]
    exact styleRules_ne_nil_iff hparts.classNames
  · exact Generator.main_hasModule hf hstocks hmodule hstyles hfiles

def coloured (value : Json) : Tree := .node ⟨"a", "div", [], [("color", value)], .null⟩ []

theorem module_lookups_backed_red :
    ∃ r g v code main, create {} (.arr [.str "react"]) (.layers .null) .null = .ok r ∧
      r.resolve none = .ok g ∧
      g.view (.component (.tree (coloured (.str "red")))) { isModule := .bool true } = .ok v ∧
      v.parts.markup = "<div className=\x7bstyles['div-a']\x7d />" ∧
      (r.generate (.component (.tree (coloured (.str "red")))) { isModule := .bool true }).2 =
        .ok code ∧
      code.files.get? "main" = some main ∧
      HasLine main.content "import styles from './GeneratedComponent.module.css';" := by
  let check (_ : Registry) (_ : Generator) (v : View) : Bool :=
    v.parts.markup == "<div className=\x7bstyles['div-a']\x7d />" && !v.parts.styles.isEmpty &&
      v.files.styles == "GeneratedComponent.module.css"
  obtain ⟨r, g, v, code, hr, hg, hview, hcheck, hcode, hreact, -⟩ :=
    Generator.exists_code (s := .component (.tree (coloured (.str "red"))))
      (o := { isModule := .bool true }) check rfl rfl (by decide +kernel)
  simp only [check, Bool.and_eq_true, beq_iff_eq, Bool.not_eq_true',
    List.isEmpty_eq_false_iff] at hcheck
  obtain ⟨⟨hmarkup, hstyles⟩, hname⟩ := hcheck
  have hf : BindsByName g.framework := hreact ▸ .react
  have hs : Subject.Standing (.component (.tree (coloured (.str "red")))) := fun a ha => by cases ha
  obtain ⟨-, -, -, -, -, -, -, -, -, hmodule, hfiles⟩ := module_lookups_backed hr hs rfl hg hf hview
  obtain ⟨main, hmain, himport, -⟩ := hmodule hstyles _ (hfiles rfl code hcode)
  rw [hname] at himport
  exact ⟨r, g, v, code, main, hr, hg, hview, hmarkup, hcode, hmain, (himport hreact).2 (by decide)⟩

/-- An element of which every style property is empty looks up a class that nothing imports. -/
theorem unbacked_lookup :
    ∃ r g v code main, create {} (.arr [.str "react"]) (.layers .null) .null = .ok r ∧
      r.resolve none = .ok g ∧ g.framework = .react ∧
      g.view (.component (.tree (coloured .null))) { isModule := .bool true } = .ok v ∧
      v.parts.markup = "<div className=\x7bstyles['div-a']\x7d />" ∧
      (r.generate (.component (.tree (coloured .null))) { isModule := .bool true }).2 = .ok code ∧
      code.files.get? "main" = some main ∧ ¬ HasLine main.content "import styles" := by
  let check (v : View) : Bool := v.parts.markup == "<div className=\x7bstyles['div-a']\x7d />"
  let text := "\n\nexport default function GeneratedComponent() \x7b\n  return (\n    " ++
    "<div className=\x7bstyles['div-a']\x7d />\n  );\n\x7d\n"
  obtain ⟨r, g, v, code, main, hr, hg, hreact, hview, hcheck, hcode, hmain, hcontent⟩ :=
    Generator.exists_main_code (s := .component (.tree (coloured .null)))
      (o := { isModule := .bool true }) check text rfl rfl (by decide +kernel)
  refine ⟨r, g, v, code, main, hr, hg, hreact, hview, beq_iff_eq.1 hcheck, hcode, hmain, ?_⟩
  rw [hcontent, hasLine_tidy_iff]
  simp only [text, String.toList_append]
  repeat rw [String.toList_ofList]
  decide +kernel

end Registry

end ViewWriter

/-! The classes of a subject. They tell its styled nodes apart, and the stylesheet and the markup have
them in the order of the nodes. -/

namespace ViewWriter

open ViewWriter.Text ViewWriter.Schema ViewWriter.Analysis ViewWriter.Markup

open ViewWriter.Markup.Dialect (styleClassOf)

/-- Classes that identify the nodes of a tree, in its stylesheet and in the attributes of a name. -/
structure ClassesIdentify (prefixName : Option String) (d : Dialect) (attributeName : String)
    (classes : Table String) (t : Tree) (p : Parts) : Prop where
  searched : Searched prefixName [] (styled t.records) classes
  keys : classes.keys = (styled t.records).map (·.id)
  distinct : ∀ r ∈ styled t.records, ∀ other ∈ styled t.records, ∀ c, (r.id, c) ∈ classes →
    (other.id, c) ∈ classes → r = other
  rules : p.styles.map (·.nodeId) = (t.records.filter declares).map (·.id)
  selectors : ∀ rule ∈ p.styles, ∃ c, (rule.nodeId, c) ∈ classes ∧ rule.selector = "." ++ c
  markup : InOrder (d.openings classes t.records) p.markup
  opened : ∀ r ∈ styled t.records, ∃ c, (r.id, c) ∈ classes ∧
    OpensWithWord (d.tagName r) attributeName c (d.opening r (styleClassOf classes r))

def classAttributeName : Framework → String
  | .react => "className"
  | .vue | .angular | .html => "class"

namespace Generator

variable {f : Framework} {config : Config} {o : Options} {d : Dialect}

lemma dialect_of_noModule (ho : o.isModule.isGiven = false)
    (h : (ofFramework f config).target.dialect config o = .ok d) :
    d.moduleClass = none ∧ d.attributeName "class" = classAttributeName f := by
  cases f with
  | react =>
    obtain rfl := Except.ok.inj h
    refine ⟨?_, (by decide : Dialect.reactName "class" = "className")⟩
    rw [Dialect.react, ho]
    rfl
  | vue =>
    obtain rfl := Except.ok.inj h
    refine ⟨?_, rfl⟩
    rw [Dialect.vue, ho]
    rfl
  | angular =>
    obtain ⟨start, -, rfl⟩ := map_eq_ok_iff.1 h
    exact ⟨rfl, rfl⟩
  | html =>
    obtain rfl := Except.ok.inj h
    exact ⟨rfl, rfl⟩

/-- Every styled node of a subject has a class of its own. It is the first name that no node before it
has, of the node's natural name and of those that are numbered from two on; such a name there is. The
rules are those of the nodes that have a value in their style, in the order of the nodes, and each selects
the class of its node. The tags stand in the markup in the order of the nodes, and without modules the
tag of a styled node opens with a class attribute of which the node's class is the first word. All this
holds of every prefix that has letters, digits, hyphens, underscores and dollar signs only. -/
theorem classes_identify_nodes {s : Subject} (hs : s.Standing) (ho : o.isModule.isGiven = false)
    {prefixName : Option String} (hp : config.stylePrefix = .ok prefixName)
    (hnames : ∀ q, prefixName = some q → Name.IsNamed q) {p : Parts}
    (h : (ofFramework f config).parts s o = .ok p) :
    ∃ t d classes, s.Shows t ∧ (ofFramework f config).target.dialect config o = .ok d ∧
      ClassesIdentify prefixName d (classAttributeName f) classes t p := by
  obtain ⟨t, d, unit, classes, ht, hd, hparts⟩ := exists_partsOf hs h
  obtain ⟨hmodule, hname⟩ := dialect_of_noModule ho hd
  have hsearched := searched_classNames hp hparts.classNames
  refine ⟨t, d, classes, ht, hd,
    { searched := hsearched
      keys := hsearched.keys
      distinct := fun r hr other hother c hc hsame => ?_
      rules := ?_
      selectors := fun rule hrule => selector_of_mem (hparts.styles ▸ hrule)
      markup := ?_
      opened := fun r hr => ?_ }⟩
  · have heq := List.inj_on_of_nodup_map hsearched.nodup hc hsame rfl
    exact List.inj_on_of_nodup_map hparts.distinct (mem_styled.1 hr).1 (mem_styled.1 hother).1
      (Prod.mk.inj heq).1
  · rw [hparts.styles]
    exact ids_styleRules hparts.classNames
  · rw [hparts.markup]
    exact Dialect.inOrder_render t
  · obtain ⟨c, hget, hclass, hne⟩ := exists_class_of_styled hparts.classNames hr
    have hmem := Table.mem_of_get? hget
    have hnamed := hsearched.isNamed hnames c (List.mem_map.2 ⟨_, hmem, rfl⟩)
    refine ⟨c, hmem, ?_⟩
    rw [hclass, ← hname]
    exact Dialect.opening_classed hmodule hne (fun a ha => Name.isBlank_of_nameChar (hnamed a ha)) r

def alike : Tree :=
  .node ⟨"a", "div", [("class", .str "wide")], [("color", .str "red")], .null⟩ [
    .node ⟨"A", "div", [], [("color", .null)], .null⟩ [],
    .node ⟨"a-2", "div", [], [("margin", .int 0)], .str "x"⟩ []]

theorem classes_identify_nodes_alike :
    ∃ p d classes, (ofFramework .html { classPrefix := .str "app" }).parts (.component (.tree alike)) {} =
        .ok p ∧
      ClassesIdentify (some "app") d "class" classes alike p ∧
      classes = [("a", "app-div-a"), ("A", "app-div-a-2"), ("a-2", "app-div-a-2-2")] ∧
      p.styles.map (·.selector) = [".app-div-a", ".app-div-a-2-2"] := by
  let config : Config := { classPrefix := .str "app" }
  have hmade : (((ofFramework .html config).parts (.component (.tree alike)) {}).toOption.any fun p =>
      p.styles.map (·.selector) == [".app-div-a", ".app-div-a-2-2"]) = true := by
    decide +kernel
  simp only [Option.any_eq_true, toOption_eq_some_iff, beq_iff_eq] at hmade
  obtain ⟨p, hp, hselectors⟩ := hmade
  have hs : Subject.Standing (.component (.tree alike)) := fun a ha => by cases ha
  obtain ⟨t, d, classes, ht, -, hidentify⟩ :=
    classes_identify_nodes hs rfl (show config.stylePrefix = .ok (some "app") from rfl)
      (fun q hq => Option.some.inj hq ▸ by decide) hp
  obtain rfl := ht.of_toTree rfl
  refine ⟨p, d, classes, hp, hidentify, ?_, hselectors⟩
  rw [hidentify.searched.unique (searched_classNamesFrom [] alike.records)]
  decide +kernel

end Generator

end ViewWriter
