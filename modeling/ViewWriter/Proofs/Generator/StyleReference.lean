import ViewWriter.Proofs.Generator.ModuleStyles
import ViewWriter.Proofs.Generator.StyleFile
import ViewWriter.Proofs.Target.HtmlNodes

/-! References to style files. The style file of a view is not empty if the view has rules, and then the
main file has a line that refers to it. -/

namespace ViewWriter

open ViewWriter.Text ViewWriter.Analysis ViewWriter.Template ViewWriter.Template.Source

namespace Target

def styleNode (page : Bool) : Framework → Node
  | .react => React.styleImport
  | .vue => Vue.styleElement
  | .angular => Angular.styleNode
  | .html => Html.styleLink (if page then "  " else "")

def styleOpening (page modules : Bool) : Framework → String
  | .react => if modules then "import styles from './" else "import './"
  | .vue => if modules then "<style module src=\"./" else "<style scoped src=\"./"
  | .angular => "  styleUrls: ['./"
  | .html => if page then "  <link rel=\"stylesheet\" href=\"./" else "<link rel=\"stylesheet\" href=\"./"

def styleClosing : Framework → String
  | .react => "';"
  | .vue => "\"></style>"
  | .angular => "'],"
  | .html => "\">"

/-- The line of a main file that refers to a style file. -/
def styleLine (f : Framework) (page modules : Bool) (file : String) : String :=
  styleOpening page modules f ++ file ++ styleClosing f

def styleMargin : Framework → String
  | .vue => "\n"
  | _ => ""

variable {f : Framework} {page : Bool} {helpers : Table Helper} {context : Json}
  {styled modules : Bool} {file : String}

lemma render_styleNode (h : StyleFacts context styled modules file) :
    renderAll helpers context [styleNode page f] =
      .ok (if styled then styleMargin f ++ (styleLine f page modules file ++ "\n") else "") := by
  cases f <;> cases page <;> cases styled <;> cases modules <;>
    simp [styleNode, React.styleImport, Vue.styleElement, Angular.styleNode, Html.styleLink, renderAll,
      Node.render, h.styled, h.modules, h.file, stringify, styleMargin, styleLine, styleOpening,
      styleClosing, bind, Except.bind, pure, Except.pure, Except.map] <;>
    exact String.toList_inj.1 (by simp)

lemma standsAt_styleNode (f : Framework) (page : Bool) :
    standsAt [styleNode page f] true (mainNodes page f) = true := by
  cases f <;> cases page <;> decide +kernel

lemma compile_main {source : String}
    (h : Json.member (ofFramework f).templates (if page then "page" else "component") = .str source) :
    compile source = mainNodes page f := by
  cases f with
  | react => exact Generator.compile_reactMain h
  | vue =>
    obtain rfl : ofLines Vue.componentLines = source := by cases page <;> exact Json.str.inj h
    exact Vue.compile_main
  | angular =>
    obtain rfl : ofLines Angular.classLines = source := by cases page <;> exact Json.str.inj h
    exact Angular.compile_main
  | html =>
    cases page with
    | false =>
      obtain rfl : ofLines Html.componentLines = source := Json.str.inj h
      exact Html.compile_component
    | true =>
      obtain rfl : ofLines Html.pageLines = source := Json.str.inj h
      exact Html.compile_page

end Target

lemma Text.tidy_ne_empty {text : String} {c : Char} (hc : c ∈ text.toList)
    (hblank : isBlank c = false) : tidy text ≠ "" := by
  obtain ⟨before, after, htext⟩ := List.append_of_mem hc
  have hsolid : IsSolid (String.singleton c).toList :=
    { unbroken := by
        rw [String.toList_singleton, List.mem_singleton]
        rintro rfl
        exact absurd hblank (by decide)
      last := ⟨[], c, by simp, hblank⟩ }
  intro hempty
  obtain ⟨l, hl, hpart⟩ : LineHas (tidy text) (String.singleton c) :=
    lineHas_tidy hsolid before after (by rw [htext]; simp)
  rw [hempty] at hl
  obtain rfl : l = [] := List.mem_singleton.1 hl
  rw [String.toList_singleton] at hpart
  cases List.infix_nil.1 hpart

namespace Generator

variable {f : Framework} {config : Config} {v : View} {fields : Table Json} {r : Registry}
  {files : Table Artifact}

lemma styles_written_iff (hr : r.Stocks (ofFramework f config))
    (h : (ofFramework f config).contextOf v = .ok fields) {styles : Artifact}
    (hstyles : artifact (r.freeze.engine (ofFramework f config)) (.obj fields) "styles" v.files.styles =
      .ok styles) :
    styles.name = v.files.styles ∧ (styles.content ≠ "" ↔ v.parts.styles ≠ []) := by
  rw [artifact, render_stocked hr (by decide) (styleSource f), render_stylesheet (resolve_styles h).2]
    at hstyles
  obtain rfl := Except.ok.inj hstyles
  refine ⟨rfl, ?_⟩
  cases hrules : v.parts.styles with
  | nil => exact iff_of_false (fun hne => hne rfl) fun hne => hne rfl
  | cons rule rest =>
    refine iff_of_true (tidy_ne_empty (c := '\x7d') ?_ (by decide)) (List.cons_ne_nil _ _)
    simp [blockText, Rule.lines]

/-- Plain markup has no style modules, whatever is asked for. -/
lemma exists_styleFacts (h : (ofFramework f config).contextOf v = .ok fields) :
    ∃ modules, StyleFacts (.obj fields) (!v.parts.styles.isEmpty) modules v.files.styles ∧
      ∀ page file, Target.styleLine f page modules file =
        Target.styleLine f page v.isModule.isGiven file := by
  by_cases hf : f = .html
  · subst hf
    obtain ⟨more, hmore, -⟩ := map_eq_ok_iff.1 h
    have hadded : ("isModule", Json.bool false) ∈ more := by
      have hhtml : Target.Html.additions config v = .ok more := hmore
      obtain rfl := Except.ok.inj hhtml
      simp
    have hmodules := eval_added h hmore ⟨by rfl, by rfl, by rfl⟩ (by rfl) hadded
    exact ⟨false, styleFacts_of_eval h hmodules, fun _ _ => rfl⟩
  · exact ⟨_, styleFacts_of_eval h (eval_isModule hf h), fun _ _ => rfl⟩

lemma main_refers (hr : r.Stocks (ofFramework f config)) (hstyles : v.parts.styles ≠ [])
    (hfile : OneLine v.files.styles)
    (h : (ofFramework f config).files (r.freeze.engine (ofFramework f config)) v = .ok files) :
    ∃ main, files.get? "main" = some main ∧
      HasLine main.content (Target.styleLine f v.page v.isModule.isGiven v.files.styles) := by
  obtain ⟨fields, source, text, hfields, hsource, htext, hmain⟩ := exists_main hr h
  obtain ⟨modules, hfacts, hline⟩ := exists_styleFacts hfields
  rw [List.isEmpty_eq_false_iff.2 hstyles] at hfacts
  rw [Target.compile_main hsource] at htext
  obtain ⟨before, written, after, hwritten, htext, hbefore⟩ :=
    exists_writtenLine (Target.standsAt_styleNode f v.page) htext
  rw [Target.render_styleNode hfacts] at hwritten
  cases hwritten
  refine ⟨_, hmain, ?_⟩
  have hmargin : AtLineStart (before ++ (Target.styleMargin f).toList) := by
    cases f with
    | vue => exact .inr ⟨before, rfl⟩
    | _ => rwa [show (Target.styleMargin _).toList = [] from rfl, List.append_nil]
  have hopening : IsSolid (Target.styleOpening v.page modules f).toList := by
    cases f <;> cases v.page <;> cases modules <;> decide
  have hclosing : IsSolid (Target.styleClosing f).toList := by cases f <;> decide
  rw [← hline]
  refine (hasFileLine_tidy hmargin hopening hclosing ('\n' :: after) ?_).2 hfile
  rw [htext]
  simp [Target.styleLine]

end Generator

end ViewWriter
