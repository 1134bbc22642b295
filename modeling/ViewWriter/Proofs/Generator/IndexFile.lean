import ViewWriter.Proofs.Generator.Serving
import ViewWriter.Proofs.Generator.Subjects
import ViewWriter.Proofs.Target.Nodes
import ViewWriter.Proofs.Template.Parts

/-! The index files. They refer to the main file of their view, by its name with or without the
extension. -/

namespace ViewWriter

open ViewWriter.Text ViewWriter.Analysis ViewWriter.Template ViewWriter.Template.Source

namespace Target

def indexOpening (name : String) : Framework → String
  | .react => "export \x7b default \x7d from './"
  | .vue => "export \x7b default \x7d from './"
  | .angular => "export \x7b " ++ name ++ "Component \x7d from './"
  | .html => "    <li><a href=\"./"

def indexClosing : Framework → String
  | .html => "\">"
  | _ => "';"

def dropsExtension : Framework → Bool
  | .react => true
  | .vue => false
  | .angular => true
  | .html => false

/-- The line of an index file that refers to the main file `stem` with an extension. -/
def indexLine (f : Framework) (name stem extension : String) : String :=
  indexOpening name f ++ (if dropsExtension f then stem else stem ++ "." ++ extension) ++ indexClosing f

/-- The nodes that write the line of an index file. -/
def indexPart : Framework → List Node
  | .react => React.indexNodes.take 3
  | .vue => Vue.indexNodes.take 3
  | .angular => Angular.indexNodes
  | .html => Html.indexLink.take 3

def indexMargin : Framework → String
  | .html => "</title>\n</head>\n<body>\n  <ul>\n"
  | _ => ""

def indexRest : Framework → String
  | .react => "\nexport \x7b default as "
  | .vue => "\nexport \x7b default as "
  | .angular => "\n"
  | .html => ""

/-- What a template knows of the main file of its view. -/
structure MainFacts (context : Json) (f : Framework) (name stem extension : String) : Prop where
  className : f = .angular → resolvePath "className" context = .ok (.str (name ++ "Component"))
  moduleName : resolvePath "moduleName" context = .ok (.str stem)
  fileName : resolvePath "fileName" context = .ok (.str (stem ++ "." ++ extension))

section Rendering

variable {f : Framework} {helpers : Table Helper} {context : Json} {name stem extension : String}
  {text : String}

lemma render_indexPart (h : MainFacts context f name stem extension) :
    renderAll helpers context (indexPart f) =
      .ok (indexMargin f ++ (indexLine f name stem extension ++ indexRest f)) := by
  cases f <;>
    simp [indexPart, React.indexNodes, Vue.indexNodes, Angular.indexNodes, Html.indexLink,
      defaultExports, renderAll, Node.render, h.className, h.moduleName, h.fileName, stringify,
      indexMargin, indexLine, indexOpening, indexClosing, indexRest, dropsExtension, bind,
      Except.bind, pure, Except.pure, Except.map] <;>
    exact String.toList_inj.1 (by simp)

lemma isSolid_indexLine (hname : OneLine name) (hstem : OneLine stem)
    (hextension : OneLine extension) : IsSolid (indexLine f name stem extension).toList := by
  have hopening : OneLine (indexOpening name f) := by
    cases f with
    | angular => exact (OneLine.append (s := "export \x7b ") (by decide) hname).append (by decide)
    | _ =>
      rw [indexOpening]
      decide
  have hfile : OneLine (if dropsExtension f then stem else stem ++ "." ++ extension) := by
    split_ifs
    · exact hstem
    · exact (hstem.append (by decide)).append hextension
  have hclosing : IsSolid (indexClosing f).toList := by cases f <;> decide
  rw [indexLine, String.toList_append]
  exact hclosing.prepend (hopening.append hfile)

lemma exists_indexLine (h : MainFacts context f name stem extension)
    (hs : renderAll helpers context (indexNodes f) = .ok text) :
    ∃ before after, text.toList = before ++ ((indexLine f name stem extension).toList ++ after) ∧
      AtLineStart before := by
  have hplaced : ∃ before written after, renderAll helpers context (indexPart f) = .ok written ∧
      text.toList = before ++ (written.toList ++ after) ∧
      AtLineStart (before ++ (indexMargin f).toList) := by
    by_cases hf : f = .html
    · subst hf
      have hpart : indexPart .html <:+: indexNodes .html :=
        (List.take_prefix 3 _).isInfix.trans (List.suffix_append _ _).isInfix
      obtain ⟨before, written, after, hwritten, htext⟩ := exists_written hpart hs
      exact ⟨before, written, after, hwritten, htext,
        .inr ⟨before ++ "</title>\n</head>\n<body>\n  <ul>".toList, by simp [indexMargin]⟩⟩
    · have hmargin : (indexMargin f).toList = [] ∧ standsAt (indexPart f) true (indexNodes f) = true := by
        revert hf
        cases f <;> decide
      obtain ⟨before, written, after, hwritten, htext, hbefore⟩ := exists_writtenLine hmargin.2 hs
      exact ⟨before, written, after, hwritten, htext, by rwa [hmargin.1, List.append_nil]⟩
  obtain ⟨before, written, after, hwritten, htext, hbefore⟩ := hplaced
  rw [render_indexPart h] at hwritten
  cases hwritten
  refine ⟨before ++ (indexMargin f).toList, (indexRest f).toList ++ after, ?_, hbefore⟩
  rw [htext]
  simp only [String.toList_append, List.append_assoc]

end Rendering

end Target

namespace Generator

variable {f : Framework} {config : Config} {v : View} {fields : Table Json} {r : Registry}
  {name stem extension base : String}

lemma mainFacts (hname : v.name = .str name) (hfiles : v.files.Formed f stem extension base)
    (h : (ofFramework f config).contextOf v = .ok fields) :
    Target.MainFacts (.obj fields) f name stem extension := by
  have hkeys : "moduleName" ∉ Target.additionKeys f ∧ "fileName" ∉ Target.additionKeys f := by
    cases f <;> decide
  have hmem : ("moduleName", Json.str (FileNames.withoutExtension v.files.main)) ∈ v.toContext ∧
      ("fileName", Json.str v.files.main) ∈ v.toContext := by
    simp [View.toContext_eq]
  rw [hfiles.main, FileNames.withoutExtension_append hfiles.point_notMem] at hmem
  refine ⟨?_, (resolve_context h "moduleName" rfl hkeys.1 hmem.1).2,
    (resolve_context h "fileName" rfl hkeys.2 hmem.2).2⟩
  rintro rfl
  obtain ⟨more, hmore, -⟩ := map_eq_ok_iff.1 h
  refine resolve_added h hmore "className" rfl ?_
  have hangular : Target.Angular.additions config v = .ok more := hmore
  obtain ⟨start, -, hangular⟩ := bind_eq_ok_iff.1 hangular
  obtain rfl := Except.ok.inj hangular
  rw [hname]
  exact List.mem_cons_self

lemma index_refers (hr : r.Stocks (ofFramework f config)) (hname : v.name = .str name)
    (hchars : Name.IsNamed name) (hfiles : v.files.Formed f stem extension base)
    (h : (ofFramework f config).contextOf v = .ok fields) {index : Artifact}
    (hindex : artifact (r.freeze.engine (ofFramework f config)) (.obj fields) "index" v.files.index =
      .ok index) :
    HasLine index.content (Target.indexLine f name stem extension) := by
  obtain ⟨text, htext, hindex⟩ := bind_eq_ok_iff.1 hindex
  cases hindex
  have hrender := mapError_eq_ok_iff.1 htext
  rw [render_stocked hr (by decide) (Target.member_index f), Target.compile_index] at hrender
  obtain ⟨before, after, hplaced, hbefore⟩ :=
    Target.exists_indexLine (mainFacts hname hfiles h) (mapError_eq_ok_iff.1 hrender)
  exact hasLine_tidy hbefore (Target.isSolid_indexLine (FileNames.isFileText_of_named hchars).oneLine
    hfiles.stem_text.oneLine hfiles.extension_text.oneLine) after hplaced

end Generator

end ViewWriter
