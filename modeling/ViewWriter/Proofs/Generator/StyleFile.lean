import ViewWriter.Proofs.Analysis.Styles
import ViewWriter.Proofs.Generator.MainFile
import ViewWriter.Proofs.Generator.Serving
import ViewWriter.Proofs.Generator.Subjects

/-! The style files. The template of every framework and the writing of stylesheets after they have
been merged agree on the rules of a view. -/

namespace ViewWriter

open ViewWriter.Text ViewWriter.Schema ViewWriter.Analysis ViewWriter.Template
  ViewWriter.Template.Source

namespace View

def rules (v : View) : List Rule := v.parts.styles.map (·.rule)

def styleFile (v : View) : Artifact := ⟨v.files.styles, Stylesheet.write "  " v.rules⟩

end View

namespace Generator

variable {f : Framework} {config : Config} {v : View} {fields : Table Json} {s : Subject}
  {o : Options} {r : Registry}

lemma styleSource (f : Framework) :
    Json.member (Target.ofFramework f).templates "styles" = .str (ofLines stylesheet) := by
  cases f <;> rfl

lemma resolve_styles (h : (ofFramework f config).contextOf v = .ok fields) :
    fields.get? "styles" = some (objects (v.parts.styles.map (·.toFields))) ∧
      resolvePath "styles" (.obj fields) = .ok (objects (v.parts.styles.map (·.toFields))) :=
  resolve_context h "styles" rfl (by cases f <;> decide)
    (by simp [View.toContext_eq, Parts.toContext])

lemma oneLined_rules (hs : s.Standing) (hview : (ofFramework f config).view s o = .ok v)
    (hnamespace : config.classPrefix.Unbroken) (hunit : config.cssUnit.Unbroken)
    (hstyle : ∀ t, s.Shows t → ∀ node ∈ t.records, PlainStyle node.style) :
    ∀ rule ∈ v.rules, rule.OneLined := by
  obtain ⟨p, hp, rfl⟩ := map_eq_ok_iff.1 hview
  obtain ⟨t, d, unit, classes, ht, -, hparts⟩ := exists_partsOf hs hp
  have hclass : ∀ q, config.stylePrefix = .ok (some q) → OneLine q := by
    intro q hq
    unfold Config.stylePrefix at hq
    split_ifs at hq
    · cases hq
    · split at hq
      · rename_i text htext
        cases hq
        exact hnamespace q htext
      · cases hq
  have hrules := oneLined_styleRules hparts.classNames hclass hunit.display (hstyle t ht)
  have hstyles : p.styles = styleRules config.cssUnit.display classes t.records := hparts.styles
  rw [← hstyles] at hrules
  intro rule hrule
  obtain ⟨styleRule, hmem, rfl⟩ := List.mem_map.1 hrule
  exact hrules styleRule hmem

lemma artifact_styles (hr : r.Stocks (ofFramework f config))
    (h : (ofFramework f config).contextOf v = .ok fields) (hrules : ∀ rule ∈ v.rules, rule.OneLined) :
    artifact (r.freeze.engine (ofFramework f config)) (.obj fields) "styles" v.files.styles =
      .ok v.styleFile := by
  have hlines : v.parts.styles.map (fun rule => rule.rule.lines "  ") =
      v.rules.map (Rule.lines "  ") := by
    rw [View.rules, List.map_map]
    rfl
  rw [artifact, render_stocked hr (by decide) (styleSource f), render_stylesheet (resolve_styles h).2,
    hlines]
  exact congrArg (fun content => Except.ok (Artifact.mk v.files.styles content)) (tidy_rules hrules)

lemma files_styles (hr : r.Stocks (ofFramework f config)) (hrules : ∀ rule ∈ v.rules, rule.OneLined)
    {files : Table Artifact}
    (h : (ofFramework f config).files (r.freeze.engine (ofFramework f config)) v = .ok files) :
    files.get? "styles" = some v.styleFile := by
  obtain ⟨fields, main, styles, index, hfields, -, hstyles, -, rfl⟩ := files_eq_ok_iff.1 h
  rw [artifact_styles hr hfields hrules] at hstyles
  cases hstyles
  simp [Table.get?_cons]

end Generator

namespace Registry

/-- The styles of a view in its context are the rules of the view, and its style file is their
stylesheet with two spaces in front of each declaration, if the styles of the tree, the class prefix
and the unit of lengths have no line breaks. This is also the style file of the code that is made of
the view, unless the code is made smaller. -/
theorem style_file_written {folder : Folder} {frameworks active : Json} {settings : Settings}
    {r : Registry} (hr : create folder frameworks settings active = .ok r) {s : Subject}
    (hs : s.Standing) {o : Options} {g : Generator} (hg : r.resolve o.framework = .ok g) {v : View}
    (hview : g.view s o = .ok v) (hnamespace : g.config.classPrefix.Unbroken)
    (hunit : g.config.cssUnit.Unbroken)
    (hstyle : ∀ t, s.Shows t → ∀ node ∈ t.records, PlainStyle node.style) :
    (∀ fields, g.contextOf v = .ok fields →
      fields.get? "styles" = some (objects (v.parts.styles.map (·.toFields))) ∧
      Generator.artifact (r.freeze.engine g) (.obj fields) "styles" v.files.styles =
        .ok ⟨v.files.styles, Stylesheet.write "  " v.rules⟩) ∧
    (o.optimize.isGiven = false → ∀ code, (r.generate s o).2 = .ok code →
      code.files.get? "styles" = some ⟨v.files.styles, Stylesheet.write "  " v.rules⟩) := by
  have hstocks := stocks_create hr g (mem_of_resolve hg)
  obtain ⟨f, config, rfl, -⟩ := id hstocks
  have hrules := Generator.oneLined_rules hs hview hnamespace hunit hstyle
  refine ⟨fun fields hfields => ⟨(Generator.resolve_styles hfields).1, ?_⟩, fun ho code hcode => ?_⟩
  · exact Generator.artifact_styles hstocks hfields hrules
  · exact Generator.files_styles hstocks hrules (files_of_view hg hview ho hcode)

def paddedCard : Tree :=
  .node ⟨"a", "Card", [], [("padding", .int 4), ("margin", .null), ("color", .str "red")], .null⟩ []

theorem style_file_written_paddedCard :
    ∃ r g v code, create {} (.arr [.str "react"]) (.layers .null) .null = .ok r ∧
      r.resolve none = .ok g ∧ g.view (.component (.tree paddedCard)) {} = .ok v ∧
      (r.generate (.component (.tree paddedCard)) {}).2 = .ok code ∧
      code.files.get? "styles" =
        some ⟨"GeneratedComponent.css", ".card-a \x7b\n  padding: 4px;\n  color: red;\n\x7d\n"⟩ := by
  let check (_ : Registry) (g : Generator) (v : View) : Bool :=
    decide g.config.classPrefix.Unbroken && decide g.config.cssUnit.Unbroken &&
      v.files.styles == "GeneratedComponent.css" &&
      Stylesheet.write "  " v.rules == ".card-a \x7b\n  padding: 4px;\n  color: red;\n\x7d\n"
  obtain ⟨r, g, v, code, hr, hg, hview, hcheck, hcode, -⟩ :=
    Generator.exists_code (s := .component (.tree paddedCard)) (o := {}) check rfl rfl
      (by decide +kernel)
  simp only [check, Bool.and_eq_true, decide_eq_true_eq, beq_iff_eq] at hcheck
  obtain ⟨⟨⟨hnamespace, hunit⟩, hname⟩, hrules⟩ := hcheck
  have hs : Subject.Standing (.component (.tree paddedCard)) := fun a ha => by cases ha
  have hstyle : ∀ t, Subject.Shows (.component (.tree paddedCard)) t → ∀ node ∈ t.records,
      PlainStyle node.style := by
    intro t ht
    rw [ht.of_toTree rfl]
    decide +kernel
  obtain ⟨-, hcoded⟩ := style_file_written hr hs hg hview hnamespace hunit hstyle
  exact ⟨r, g, v, code, hr, hg, hview, hcode, by rw [hcoded rfl code hcode, hname, hrules]⟩

end Registry

end ViewWriter
