import ViewWriter.Analysis.Context
import ViewWriter.Proofs.Json.OneLine
import ViewWriter.Proofs.Template.Compiling
import ViewWriter.Proofs.Template.Parts
import ViewWriter.Proofs.Template.Totality
import ViewWriter.Proofs.Text.Blocks
import ViewWriter.Stylesheet.Basic

/-! Loops of templates. One that goes over the imports at the start of a line writes a line for each of
them; the one of stylesheets writes a block of lines for each rule, and the blocks are tidied into the
stylesheet of the rules. -/

namespace ViewWriter.Template

open ViewWriter.Text ViewWriter.Analysis

def importBody : List Node :=
  [.text "import ", .interpolation "item.name", .text " from '", .interpolation "item.source",
    .text "';\n"]

def importLoop : Node := .loop "imports" importBody

def importStart : List Node := [.text "import ", .interpolation "item.name", .text " from '"]

def importHead (name : String) : List Char := "import ".toList ++ name.toList ++ " from '".toList

variable {helpers : Table Helper} {context : Json}

lemma render_importStart (i : Import) (index : ℕ) :
    renderAll helpers (loopContext context (.obj i.toFields) index) importStart =
      .ok (String.ofList (importHead i.name)) := by
  have hname : resolvePath "item.name" (loopContext context (.obj i.toFields) index) =
      .ok (.str i.name) :=
    resolve_item "name" rfl (by simp [Import.toFields, Table.get?_cons]) index
  have htext : "import " ++ (i.name ++ " from '") = String.ofList (importHead i.name) := by
    refine String.toList_inj.1 ?_
    unfold importHead
    simp only [String.toList_append]
    rw [List.append_assoc]
    exact String.toList_ofList.symm
  simp only [importStart, renderAll, Node.render, hname, Except.map, stringify, bind, Except.bind, pure,
    Except.pure, String.append_empty, htext]

lemma isSolid_importHead {name : String} (h : '\n' ∉ name.toList) : IsSolid (importHead name) := by
  unfold importHead
  rw [List.append_assoc]
  exact .prepend (.prepend (by decide) h) (by decide)

/-- A text written from a context with imports has a line for each of them. -/
lemma exists_importLine {nodes : List Node} {text : String} {imports : List Import} {i : Import}
    (h : standsAt [importLoop] true nodes = true)
    (himports : resolvePath "imports" context = .ok (objects (imports.map (·.toFields))))
    (hs : renderAll helpers context nodes = .ok text) (hi : i ∈ imports)
    (hname : '\n' ∉ i.name.toList) :
    ∃ l ∈ lines (tidy text).toList, importHead i.name <+: l := by
  have hsolid : IsSolid (String.ofList (importHead i.name)).toList := by
    rw [String.toList_ofList]
    exact isSolid_importHead hname
  obtain ⟨l, hl, hprefix⟩ := hasLine_item importStart h (by decide) (by decide) himports
    (List.mem_map_of_mem (List.mem_map_of_mem hi)) hs (render_importStart i) hsolid
  rw [String.toList_ofList] at hprefix
  exact ⟨l, hl, hprefix⟩

end ViewWriter.Template

namespace ViewWriter

open ViewWriter.Text ViewWriter.Analysis ViewWriter.Template ViewWriter.Template.Source

def declarationLine (indent : String) (d : StyleDeclaration) : List Char :=
  (indent ++ d.1 ++ ": " ++ d.2 ++ ";").toList

namespace Rule

def lines (indent : String) (r : Rule) : List (List Char) :=
  (r.selector ++ " \x7b").toList :: r.declarations.map (declarationLine indent) ++ [['\x7d']]

lemma toList_write_lines (indent : String) (r : Rule) :
    (r.write indent).toList = unlines (r.lines indent) := by
  have hclose : "\x7d".toList = ['\x7d'] := by decide
  have hdeclaration : String.toList ∘ (fun d => indent ++ d.1 ++ ": " ++ d.2 ++ ";") =
      declarationLine indent := rfl
  rw [write, join, String.toList_ofList, List.map_append, List.map_cons, List.map_map,
    List.map_singleton, hclose, hdeclaration]
  rfl

end Rule

namespace Analysis.StyleRule

def rule (r : StyleRule) : Rule := ⟨r.selector, r.declarations⟩

end Analysis.StyleRule

namespace Template

def declarationBody : List Node :=
  [.text "  ", .interpolation "item.property", .text ": ", .interpolation "item.value", .text ";\n"]

def ruleBody : List Node :=
  [.interpolation "item.selector", .text " \x7b\n", .loop "item.declarations" declarationBody,
    .text "\x7d\n\n"]

def styleLoop : Node := .loop "styles" ruleBody

lemma compile_stylesheet : compile (ofLines stylesheet) = [styleLoop] := by
  refine compile_eq ?_
  rw [toList_ofLines]
  decide +kernel

section Rendering

variable {helpers : Table Helper} {context : Json}

def declarationFields (d : StyleDeclaration) : Table Json :=
  [("property", .str d.1), ("value", .str d.2)]

lemma render_declarationBody (d : StyleDeclaration) (index : ℕ) :
    renderAll helpers (loopContext context (.obj (declarationFields d)) index) declarationBody =
      .ok (String.ofList (declarationLine "  " d ++ ['\n'])) := by
  have hproperty : resolvePath "item.property"
      (loopContext context (.obj (declarationFields d)) index) = .ok (.str d.1) :=
    resolve_item "property" rfl (by simp [declarationFields, Table.get?_cons]) index
  have hvalue : resolvePath "item.value"
      (loopContext context (.obj (declarationFields d)) index) = .ok (.str d.2) :=
    resolve_item "value" rfl (by simp [declarationFields, Table.get?_cons]) index
  have hend : ";\n".toList = ";".toList ++ ['\n'] := by decide
  simp only [declarationBody, renderAll, Node.render, hproperty, hvalue, Except.map, stringify, bind,
    Except.bind, pure, Except.pure]
  refine congrArg Except.ok (String.toList_inj.1 ?_)
  simp only [declarationLine, String.toList_append, String.toList_ofList, String.toList_empty, hend,
    List.append_assoc, List.append_nil]

lemma render_ruleBody (r : StyleRule) (index : ℕ) :
    renderAll helpers (loopContext context (.obj r.toFields) index) ruleBody =
      .ok (String.ofList (blockText (r.rule.lines "  "))) := by
  have hselector : resolvePath "item.selector" (loopContext context (.obj r.toFields) index) =
      .ok (.str r.selector) :=
    resolve_item "selector" rfl (by simp [StyleRule.toFields, Table.get?_cons]) index
  have hdeclarations : resolvePath "item.declarations"
      (loopContext context (.obj r.toFields) index) =
      .ok (.arr (r.declarations.map fun d => .obj (declarationFields d))) :=
    resolve_item "declarations" rfl
      (by simp [StyleRule.toFields, Table.get?_cons, declarationFields]) index
  have hopen : " \x7b\n".toList = " \x7b".toList ++ ['\n'] := by decide
  have hclose : "\x7d\n\n".toList = ['\x7d', '\n', '\n'] := by decide
  simp only [ruleBody, renderAll, Node.render, hselector, hdeclarations,
    renderItems_map render_declarationBody, Except.map, stringify, bind, Except.bind, pure,
    Except.pure]
  refine congrArg Except.ok (String.toList_inj.1 ?_)
  simp only [blockText, Rule.lines, StyleRule.rule, String.toList_append, String.toList_ofList,
    String.toList_empty, hopen, hclose, List.append_assoc, List.append_nil, List.flatMap_cons,
    List.flatMap_append, List.flatMap_map, List.flatMap_nil, List.cons_append, List.nil_append]

lemma render_stylesheet {rules : List StyleRule}
    (h : resolvePath "styles" context = .ok (objects (rules.map (·.toFields)))) :
    renderAll helpers context (compile (ofLines stylesheet)) =
      .ok (String.ofList ((rules.map fun r => r.rule.lines "  ").flatMap blockText)) := by
  have hloop : styleLoop.render helpers context =
      .ok (String.ofList ((rules.map fun r => r.rule.lines "  ").flatMap blockText)) := by
    rw [styleLoop, Node.render, h, objects, List.map_map, List.flatMap_map]
    exact renderItems_map render_ruleBody rules 0
  rw [compile_stylesheet, renderAll, hloop, renderAll]
  exact congrArg Except.ok String.append_empty

end Rendering

end Template

/-! Rules whose texts have no line breaks. -/

/-- A rule whose selector and declarations stand on one line each. -/
def Rule.OneLined (r : Rule) : Prop :=
  OneLine r.selector ∧ ∀ d ∈ r.declarations, OneLine d.1 ∧ OneLine d.2

lemma Rule.OneLined.solid {indent : String} (hindent : OneLine indent) {r : Rule}
    (h : r.OneLined) : ∀ l ∈ r.lines indent, IsSolid l := by
  obtain ⟨hselector, hdeclarations⟩ := h
  have hselectorLine : IsSolid (r.selector ++ " \x7b").toList :=
    { unbroken := hselector.append (by decide)
      last := ⟨r.selector.toList ++ [' '], '\x7b', by simp, by decide⟩ }
  have hdeclarationLine : ∀ d ∈ r.declarations, IsSolid (declarationLine indent d) := by
    intro d hd
    obtain ⟨hproperty, hvalue⟩ := hdeclarations d hd
    have hline : OneLine (indent ++ d.1 ++ ": " ++ d.2) :=
      ((hindent.append hproperty).append (by decide)).append hvalue
    exact
      { unbroken := hline.append (by decide)
        last := ⟨(indent ++ d.1 ++ ": " ++ d.2).toList, ';', by simp [declarationLine], by decide⟩ }
  intro l hl
  rcases List.mem_append.1 hl with hl | hl
  · rcases List.mem_cons.1 hl with rfl | hl
    · exact hselectorLine
    · obtain ⟨d, hd, rfl⟩ := List.mem_map.1 hl
      exact hdeclarationLine d hd
  · obtain rfl := List.mem_singleton.1 hl
    exact ⟨by decide, [], '\x7d', rfl, by decide⟩

/-- The blocks of rules on one line each are tidied into the stylesheet of the rules. -/
lemma tidy_rules {rules : List Rule} (h : ∀ r ∈ rules, r.OneLined) :
    tidy (String.ofList ((rules.map (Rule.lines "  ")).flatMap blockText)) =
      Stylesheet.write "  " rules := by
  refine String.toList_inj.1 ?_
  rw [tidy, String.toList_ofList, String.toList_ofList]
  cases rules with
  | nil => rfl
  | cons r rest =>
    have hsolid : ∀ ls ∈ (r :: rest).map (Rule.lines "  "), ls ≠ [] ∧ ∀ l ∈ ls, IsSolid l := by
      intro ls hls
      obtain ⟨s, hs, rfl⟩ := List.mem_map.1 hls
      exact ⟨by simp [Rule.lines], (h s hs).solid (by decide)⟩
    have hwrite : ((r :: rest).map (·.write "  ")).map String.toList =
        ((r :: rest).map (Rule.lines "  ")).map unlines := by
      simp only [List.map_map]
      exact List.map_congr_left fun s _ => s.toList_write_lines "  "
    rw [tidyChars_blocks (by simp) hsolid, ← hwrite]
    simp [Stylesheet.write, join]

end ViewWriter
