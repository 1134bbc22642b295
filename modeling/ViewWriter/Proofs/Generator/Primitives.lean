import ViewWriter.Proofs.Generator.Equipment
import ViewWriter.Proofs.Generator.MainFile
import ViewWriter.Proofs.Script.UsedNames
import ViewWriter.Proofs.Target.Nodes
import ViewWriter.Proofs.Template.Spans

/-! Primitives of the frameworks. The main templates import those that their own texts use, and no
others. -/

namespace ViewWriter

open ViewWriter.Text ViewWriter.Analysis ViewWriter.Template ViewWriter.Template.Source

/-- The template imports a name in the list of names that it takes from a source. -/
def Imports (source : String) (spans : List Span) (name : String) : Prop :=
  Lists "import \x7b " (" \x7d from '" ++ source ++ "';\n") spans name

/-- The head of a class names an interface. -/
def Implements (spans : List Span) (name : String) : Prop :=
  Lists " implements " " \x7b\n" spans name

/-- The spans that the main template of a generator writes for a view. -/
def Generator.WritesMain (g : Generator) (r : Registry) (v : View) (spans : List Span) : Prop :=
  ∃ fields source, g.contextOf v = .ok fields ∧
    Json.member g.target.templates (if v.page then "page" else "component") = .str source ∧
    spansAll (r.store.helpersFor (some g.framework.key)) (.obj fields) (compile source) = .ok spans

section Listing

variable {helpers : Table Helper} {context : Json} {spans : List Span} {earlier later : List Node}
  {opening closing last key path raw name : String} {xs : List String}

lemma lists_conditional (hjoin : helpers.lookup "join" = some Helper.join)
    (hkey : (Condition.holds key).eval context = .ok (!xs.isEmpty))
    (hxs : resolveOperand path context = .ok (.ofStrings xs))
    (hwords : ∀ x ∈ xs, isIdentifier x.toList = true)
    (h : spansAll helpers context (earlier ++
      .conditional (.holds key)
        [.text opening, .call "join" [path, "\", \""] raw, .text closing] [] :: later) = .ok spans)
    (hearlier : mentionAny closing earlier = false) (hlater : mentionAny closing later = false)
    (hopening : hasPart closing.toList opening.toList = false) :
    Lists opening closing spans name ↔ name ∈ xs := by
  have hjoined : spansAll helpers context
      [.text opening, .call "join" [path, "\", \""] raw, .text closing] =
        .ok [.own opening, .filled (join ", " xs), .own closing] := spansAll_join hjoin hxs
  have hparts : spansAll helpers context (earlier ++
      [.conditional (.holds key)
        [.text opening, .call "join" [path, "\", \""] raw, .text closing] []] ++ later) =
      .ok spans := by
    rwa [List.append_assoc, List.singleton_append]
  cases xs with
  | nil =>
    obtain ⟨_, c, hfirst, hc, rfl⟩ := spansAll_append_eq_ok.1 hparts
    obtain ⟨a, b, ha, hb, rfl⟩ := spansAll_append_eq_ok.1 hfirst
    have hnone : ¬ HasOwn closing (a ++ b ++ c) := by
      rw [hasOwn_append, hasOwn_append, hasOwn_spansAll _ hb, writesAny_conditional hkey]
      simp [not_hasOwn ha hearlier, not_hasOwn hc hlater, WritesAny]
    exact iff_of_false (not_lists_of_closing hnone) List.not_mem_nil
  | cons x rest =>
    have hpart : spansAll helpers context [.conditional (.holds key)
        [.text opening, .call "join" [path, "\", \""] raw, .text closing] []] =
          .ok [.own opening, .filled (join ", " (x :: rest)), .own (closing ++ "")] := by
      rw [spansAll_conditional hkey, String.append_empty]
      exact hjoined
    rw [lists_iff_of_closing hparts hpart hearlier hlater hopening,
      Script.identifiers_join hwords]

end Listing

namespace Target

/-! What is computed of the marks in the nodes, for each template together, which spells its texts
once. -/

lemma React.marks_checked (page : Bool) :
    (mainNodes page).filter (fun n => n.mentions "] = useState") = [stateLoop] ∧
      (mainNodes page).filter (fun n => n.mentions "useEffect(") =
        (if page then (pageNodes.drop 8).take 1 else []) ++ [.loop "effects" effectBody] ∧
      mentionAny " \x7d from 'react';\n" (mainNodes page).tail = false := by
  cases page <;> decide +kernel

lemma Vue.marks_checked :
    mainNodes.filter (fun n => n.mentions " = ref") = [.loop "state" stateBody] ∧
      (∀ mark ∈ ["watch([", "onMounted(", "onUnmounted("],
        mainNodes.filter (fun n => n.mentions mark) = [.loop "effects" effectBody] ∧
        effectBody.filter (fun n => n.mentions mark) =
          [.conditional (.holds "item.deps") watchNodes mountNodes]) ∧
      mentionAny "watch([" mountNodes = false ∧
      mentionAny "onMounted(" watchNodes = false ∧ mentionAny "onUnmounted(" watchNodes = false ∧
      mountNodes.filter (fun n => n.mentions "onUnmounted(") = mountNodes.drop 3 ∧
      mentionAny " \x7d from 'vue';\n" (mainNodes.take 5) = false ∧
      mentionAny " \x7d from 'vue';\n" (mainNodes.drop 6) = false := by
  decide +kernel

lemma Angular.marks_checked :
    mainNodes.filter (fun n => n.mentions " implements ") = [lifecycleNode] ∧
      mainNodes.filter (fun n => n.mentions "@Input()") = fieldNodes.take 1 ∧
      mainNodes.filter (fun n => n.mentions "ngOnInit(): void") = hookNodes.take 1 ∧
      mainNodes.filter (fun n => n.mentions "ngOnDestroy(): void") = hookNodes.drop 1 ∧
      mainNodes.filter (fun n => n.mentions "title: Title") = fieldNodes.drop 2 ∧
      mainNodes.filter (fun n => n.mentions
        "import \x7b Title \x7d from '@angular/platform-browser';\n") = [titleImport] ∧
      mentionAny " \x7d from '@angular/core';\n" (mainNodes.drop 3) = false ∧
      mentionAny " implements " (mainNodes.take 17) = false ∧
      mentionAny " implements " (mainNodes.drop 19) = false := by
  decide +kernel

end Target

namespace Generator

variable {f : Framework} {config : Config} {v : View} {fields : Table Json} {helpers : Table Helper}
  {spans : List Span} {name : String}

lemma operand_added (h : (ofFramework f config).contextOf v = .ok fields) {more : Table Json}
    (hmore : (Target.ofFramework f).additions config v = .ok more) {key : String}
    (hname : IsLookup key) (hpath : segments (trimmed key) = [key]) {value : Json}
    (hmem : (key, value) ∈ more) : resolveOperand key (.obj fields) = .ok value := by
  rw [resolveOperand_lookup hname]
  exact resolve_added h hmore key hpath hmem

lemma eval_item {context : Json} {item : Table Json} {path : String} (key : String)
    (hname : IsLookup path) (hpath : segments (trimmed path) = ["item", key]) {value : Json}
    (hget : item.get? key = some value) (index : ℕ) :
    (Condition.holds path).eval (loopContext context (.obj item) index) = .ok value.isGiven :=
  eval_holds hname (resolve_item key hpath hget index)

lemma eval_pageTitle (hf : "pageTitle" ∉ Target.additionKeys f)
    (h : (ofFramework f config).contextOf v = .ok fields) :
    (Condition.holds "pageTitle").eval (.obj fields) = .ok v.pageTitle.isGiven :=
  eval_context h ⟨by rfl, by rfl, by rfl⟩ (by rfl) hf (by simp [View.toContext_eq])

lemma resolve_state (hf : "state" ∉ Target.additionKeys f)
    (h : (ofFramework f config).contextOf v = .ok fields) :
    resolvePath "state" (.obj fields) =
      .ok (.arr (v.parts.state.map fun x => .obj x.toFields)) := by
  have hmem : ("state", objects (v.parts.state.map (·.toFields))) ∈ v.toContext := by
    simp [View.toContext_eq, Parts.toContext]
  rw [(resolve_context h "state" rfl hf hmem).2, objects, List.map_map]
  rfl

lemma resolve_effects (hf : "effects" ∉ Target.additionKeys f)
    (h : (ofFramework f config).contextOf v = .ok fields) :
    resolvePath "effects" (.obj fields) =
      .ok (.arr (v.parts.effects.map fun x => .obj x.toFields)) := by
  have hmem : ("effects", objects (v.parts.effects.map (·.toFields))) ∈ v.toContext := by
    simp [View.toContext_eq, Parts.toContext]
  rw [(resolve_context h "effects" rfl hf hmem).2, objects, List.map_map]
  rfl

lemma eval_deps {context : Json} (e : Effect) (index : ℕ) :
    (Condition.holds "item.deps").eval (loopContext context (.obj e.toFields) index) =
      .ok (Target.Vue.hasDeps e) := by
  have hget : e.toFields.get? "deps" = some (.ofStrings e.deps) := by
    simp [Effect.toFields, Table.get?_cons]
  rw [eval_item "deps" ⟨by rfl, by rfl, by rfl⟩ (by rfl) hget]
  simp [Json.ofStrings, Json.isGiven, Target.Vue.hasDeps]

lemma eval_cleanup {context : Json} (e : Effect) (index : ℕ) :
    (Condition.holds "item.hasCleanup").eval (loopContext context (.obj e.toFields) index) =
      .ok e.hasCleanup := by
  have hget : e.toFields.get? "hasCleanup" = some (.bool e.hasCleanup) := by
    simp [Effect.toFields, Table.get?_cons]
  exact eval_item "hasCleanup" ⟨by rfl, by rfl, by rfl⟩ (by rfl) hget index

lemma vue_additions (h : (ofFramework .vue config).contextOf v = .ok fields) :
    ∃ more, Target.Vue.additions config v = .ok more ∧
      ("vueImports", .ofStrings (Target.Vue.primitives v)) ∈ more ∧
      ("hasVueImports", .bool !(Target.Vue.primitives v).isEmpty) ∈ more := by
  obtain ⟨more, hmore, -⟩ := map_eq_ok_iff.1 h
  have hvue : Target.Vue.additions config v = .ok more := hmore
  obtain ⟨props, -, hadded⟩ := bind_eq_ok_iff.1 hvue
  cases hadded
  exact ⟨_, hvue, by simp, by simp⟩

lemma angular_additions (h : (ofFramework .angular config).contextOf v = .ok fields) :
    ∃ more, Target.Angular.additions config v = .ok more ∧
      ("coreImports", .ofStrings (Target.Angular.coreImports v)) ∈ more ∧
      ("lifecycle", .ofStrings (Target.Angular.lifecycle v)) ∈ more ∧
      ("hasInit", .bool (Target.Angular.hasInit v)) ∈ more ∧
      ("hasDestroy", .bool (Target.Angular.hasDestroy v)) ∈ more ∧
      ("props", .arr (v.parts.props.map fun p =>
        .obj (p.toFields ++ [("declaration", .str (Target.Angular.declaration p))]))) ∈ more := by
  obtain ⟨more, hmore, -⟩ := map_eq_ok_iff.1 h
  have hangular : Target.Angular.additions config v = .ok more := hmore
  obtain ⟨selectorPrefix, -, hadded⟩ := bind_eq_ok_iff.1 hangular
  cases hadded
  exact ⟨_, hangular, by simp, by simp, by simp, by simp, by simp [objects]⟩

section React

open Target.React

variable (h : (ofFramework .react config).contextOf v = .ok fields)
  (hspans : spansAll helpers (.obj fields) (mainNodes v.page) = .ok spans)
include h hspans

lemma react_imports (hjoin : helpers.lookup "join" = some Helper.join) :
    Imports "react" spans name ↔ name ∈ hooks v := by
  have hmore : Target.React.additions config v = .ok _ := rfl
  have hhooks : resolveOperand "hooks" (.obj fields) = .ok (.ofStrings (hooks v)) :=
    operand_added h hmore ⟨by rfl, by rfl, by rfl⟩ (by rfl) (by simp)
  have hcondition : (Condition.holds "hasHooks").eval (.obj fields) =
      .ok (Json.bool !(hooks v).isEmpty).isGiven :=
    eval_added h hmore ⟨by rfl, by rfl, by rfl⟩ (by rfl) (by simp)
  have hwords : ∀ x ∈ ["useState", "useEffect"], isIdentifier x.toList = true := by decide
  have hnodes : mainNodes v.page = [] ++ .conditional (.holds "hasHooks")
      [.text "import \x7b ", .call "join" ["hooks", "\", \""] (mark "join hooks \", \""),
        .text " \x7d from 'react';\n"] [] :: (mainNodes v.page).tail := by
    cases v.page <;> rfl
  rw [hnodes] at hspans
  exact lists_conditional hjoin hcondition hhooks (fun x hx => hwords x (hooks_subset v hx)) hspans rfl
    (marks_checked v.page).2.2 (by decide)

lemma react_state : HasOwn "] = useState" spans ↔ v.parts.state ≠ [] := by
  rw [hasOwn_spansAll _ hspans, writesAny_filter, (marks_checked v.page).1]
  refine writesAny_loop_iff_ne_nil (resolve_state (by decide) h) fun x index => ?_
  rw [writesAny_filter]
  exact writesAny_text (s := "] = useState") (by decide)

lemma react_effect : HasOwn "useEffect(" spans ↔ v.parts.effects ≠ [] ∨ v.setsTitle = true := by
  have hmore : Target.React.additions config v = .ok _ := rfl
  have heffects : resolvePath "effects" (.obj fields) =
      .ok (withGaps (!v.parts.state.isEmpty) (v.parts.effects.map (·.toFields))) :=
    resolve_added h hmore "effects" rfl (by simp)
  have hloop : WritesAny helpers "useEffect(" (.obj fields) [.loop "effects" effectBody] ↔
      v.parts.effects ≠ [] := by
    rw [writesAny_loop_iff_ne_nil heffects]
    · simp
    · intro x index
      rw [writesAny_filter]
      exact writesAny_text (s := "  useEffect(() => \x7b\n") (by decide)
  rw [hasOwn_spansAll _ hspans, writesAny_filter, (marks_checked v.page).2.1, View.setsTitle]
  cases hpage : v.page with
  | false =>
    rw [if_neg Bool.false_ne_true, List.nil_append, hloop]
    simp
  | true =>
    -- only a page has the effect that sets the title
    obtain ⟨first, others, htitle, hfirst⟩ : ∃ first others,
        (pageNodes.drop 8).take 1 =
          [.conditional (.holds "pageTitle") (.text first :: others) []] ∧
        hasPart "useEffect(".toList first.toList = true :=
      ⟨_, _, rfl, by decide⟩
    rw [if_pos rfl, htitle, List.singleton_append, writesAny_cons, hloop,
      writesAny_conditional (eval_pageTitle (by decide) h), or_comm]
    cases v.pageTitle.isGiven with
    | false => simp [WritesAny]
    | true => simp [writesAny_cons, writesAny_text hfirst]

end React

section Vue

open Target.Vue

variable (h : (ofFramework .vue config).contextOf v = .ok fields)
  (hspans : spansAll helpers (.obj fields) mainNodes = .ok spans)
include h hspans

lemma vue_imports (hjoin : helpers.lookup "join" = some Helper.join) :
    Imports "vue" spans name ↔ name ∈ primitives v := by
  obtain ⟨more, hmore, himports, hhas⟩ := vue_additions h
  have hprimitives := operand_added h hmore ⟨by rfl, by rfl, by rfl⟩ (by rfl) himports
  have hcondition := eval_added h hmore ⟨by rfl, by rfl, by rfl⟩ (by rfl) hhas
  have hwords : ∀ x ∈ ["ref", "onMounted", "onUnmounted", "watch"],
      isIdentifier x.toList = true := by
    decide
  have hnodes : mainNodes = mainNodes.take 5 ++
      .conditional (.holds "hasVueImports") primitiveImport [] :: mainNodes.drop 6 := rfl
  obtain ⟨-, -, -, -, -, -, hearlier, hlater⟩ := marks_checked
  rw [hnodes] at hspans
  exact lists_conditional hjoin hcondition hprimitives (fun x hx => hwords x (primitives_subset v hx))
    hspans hearlier hlater (by decide)

lemma vue_state : HasOwn " = ref" spans ↔ v.parts.state ≠ [] := by
  rw [hasOwn_spansAll _ hspans, writesAny_filter, marks_checked.1]
  refine writesAny_loop_iff_ne_nil (resolve_state (by decide) h) fun x index => ?_
  rw [writesAny_filter]
  exact writesAny_text (s := " = ref") (by decide)

lemma vue_effects {mark : String} {P : Effect → Prop}
    (hmark : mark ∈ ["watch([", "onMounted(", "onUnmounted("])
    (hwrites : ∀ (e : Effect) index, WritesAny helpers mark
      (loopContext (.obj fields) (.obj e.toFields) index)
        (if hasDeps e then watchNodes else mountNodes) ↔ P e) :
    HasOwn mark spans ↔ ∃ e ∈ v.parts.effects, P e := by
  obtain ⟨hfilter, hbody⟩ := marks_checked.2.1 mark hmark
  rw [hasOwn_spansAll _ hspans, writesAny_filter, hfilter]
  refine writesAny_loop (resolve_effects (by decide) h) fun e index => ?_
  rw [writesAny_filter, hbody, writesAny_conditional (eval_deps e index)]
  exact hwrites e index

lemma vue_watch : HasOwn "watch([" spans ↔ ∃ e ∈ v.parts.effects, hasDeps e = true := by
  refine vue_effects h hspans (by simp) fun e index => ?_
  cases hasDeps e with
  | true =>
    refine iff_of_true ?_ rfl
    rw [if_pos rfl, writesAny_filter]
    exact writesAny_text (s := "watch([") (by decide)
  | false => exact iff_of_false (not_writesAny mountNodes marks_checked.2.2.1) Bool.false_ne_true

lemma vue_mount : HasOwn "onMounted(" spans ↔ ∃ e ∈ v.parts.effects, hasDeps e = false := by
  refine vue_effects h hspans (by simp) fun e index => ?_
  cases hasDeps e with
  | true => exact iff_of_false (not_writesAny watchNodes marks_checked.2.2.2.1) (by simp)
  | false =>
    refine iff_of_true ?_ rfl
    rw [if_neg Bool.false_ne_true, writesAny_filter]
    exact writesAny_text (s := "onMounted(() => \x7b\n") (by decide)

lemma vue_unmount : HasOwn "onUnmounted(" spans ↔
    ∃ e ∈ v.parts.effects, hasDeps e = false ∧ e.hasCleanup = true := by
  obtain ⟨-, -, -, -, hwatch, hmount, -⟩ := marks_checked
  refine vue_effects h hspans (by simp) fun e index => ?_
  cases hasDeps e with
  | true => exact iff_of_false (not_writesAny watchNodes hwatch) (by simp)
  | false =>
    obtain ⟨first, others, hcleanup, hfirst⟩ : ∃ first others, mountNodes.drop 3 =
        [.conditional (.holds "item.hasCleanup") (.text first :: others) []] ∧
        hasPart "onUnmounted(".toList first.toList = true :=
      ⟨_, _, rfl, by decide⟩
    rw [if_neg Bool.false_ne_true, writesAny_filter, hmount, hcleanup,
      writesAny_conditional (eval_cleanup e index)]
    cases e.hasCleanup with
    | false => simp [WritesAny]
    | true => simp [writesAny_cons, writesAny_text hfirst]

end Vue

section Angular

open Target.Angular

variable (h : (ofFramework .angular config).contextOf v = .ok fields)
  (hspans : spansAll helpers (.obj fields) mainNodes = .ok spans)
include h hspans

lemma angular_imports (hjoin : helpers.lookup "join" = some Helper.join) :
    Imports "@angular/core" spans name ↔ name ∈ coreImports v := by
  obtain ⟨more, hmore, himports, -⟩ := angular_additions h
  have hcore := operand_added h hmore ⟨by rfl, by rfl, by rfl⟩ (by rfl) himports
  have hwords : ∀ x ∈ ["Component", "Input", "OnInit", "OnDestroy"],
      isIdentifier x.toList = true := by
    decide
  have hpart : spansAll helpers (.obj fields) coreImport =
      .ok [.own "import \x7b ", .filled (join ", " (coreImports v)),
        .own ((" \x7d from '" ++ "@angular/core" ++ "';\n") ++
          "import \x7b CommonModule \x7d from '@angular/common';\n")] :=
    spansAll_join hjoin hcore
  have hnodes : mainNodes = [] ++ coreImport ++ mainNodes.drop 3 := rfl
  rw [hnodes] at hspans
  obtain ⟨-, -, -, -, -, -, hlater, -⟩ := marks_checked
  rw [Imports, lists_iff_of_closing hspans hpart rfl hlater (by decide),
    Script.identifiers_join fun x hx => hwords x (coreImports_subset v hx)]

lemma angular_implements (hjoin : helpers.lookup "join" = some Helper.join) :
    Implements spans name ↔ name ∈ lifecycle v := by
  obtain ⟨more, hmore, -, hlifecycle, -⟩ := angular_additions h
  have hlisted := operand_added h hmore ⟨by rfl, by rfl, by rfl⟩ (by rfl) hlifecycle
  have hcondition := eval_added h hmore ⟨by rfl, by rfl, by rfl⟩ (by rfl) hlifecycle
  have hnames : lifecycle v ⊆ ["OnInit", "OnDestroy"] := by
    intro x hx
    simp only [lifecycle, List.mem_append] at hx
    rcases hx with hx | hx <;> split_ifs at hx <;> simp_all
  have hwords : ∀ x ∈ ["OnInit", "OnDestroy"], isIdentifier x.toList = true := by decide
  obtain ⟨hfilter, -, -, -, -, -, -, hearlier, hlater⟩ := marks_checked
  cases hnone : lifecycle v with
  | nil =>
    refine iff_of_false (not_lists_of_opening ?_) List.not_mem_nil
    rw [hasOwn_spansAll _ hspans, writesAny_filter, hfilter, lifecycleNode,
      writesAny_conditional hcondition, hnone]
    simp [WritesAny, Json.ofStrings, Json.isGiven]
  | cons x rest =>
    have hpart : spansAll helpers (.obj fields) [lifecycleNode, .text " \x7b\n"] =
        .ok [.own " implements ", .filled (join ", " (lifecycle v)), .own (" \x7b\n" ++ "")] := by
      have hgiven : (Json.ofStrings (lifecycle v)).isGiven = true := by rw [hnone]; rfl
      rw [lifecycleNode, spansAll_conditional hcondition, if_pos hgiven]
      exact spansAll_join hjoin hlisted
    have hnodes : mainNodes =
        mainNodes.take 17 ++ [lifecycleNode, .text " \x7b\n"] ++ mainNodes.drop 19 := rfl
    rw [hnodes] at hspans
    rw [Implements, lists_iff_of_opening hspans hpart hearlier hlater (by decide),
      Script.identifiers_join fun x hx => hwords x (hnames hx), hnone]

lemma angular_input : HasOwn "@Input()" spans ↔ v.parts.props ≠ [] := by
  obtain ⟨more, hmore, -, -, -, -, hprops⟩ := angular_additions h
  have hloop : resolvePath "props" (.obj fields) = .ok _ :=
    resolve_added h hmore "props" rfl hprops
  rw [hasOwn_spansAll _ hspans, writesAny_filter, marks_checked.2.1]
  refine writesAny_loop_iff_ne_nil hloop fun x index => ?_
  rw [writesAny_cons]
  exact .inl (writesAny_text (by decide))

omit h in
lemma angular_marked {mark key : String} {b : Bool} {thenBranch : List Node} {first : String}
    (hkey : (Condition.holds key).eval (.obj fields) = .ok b)
    (hfilter : mainNodes.filter (fun n => n.mentions mark) =
      [.conditional (.holds key) (.text first :: thenBranch) []])
    (hfirst : hasPart mark.toList first.toList = true) : HasOwn mark spans ↔ b = true := by
  rw [hasOwn_spansAll _ hspans, writesAny_filter, hfilter, writesAny_conditional hkey]
  cases b with
  | false => simp [WritesAny]
  | true => simp [writesAny_cons, writesAny_text hfirst]

lemma angular_init : HasOwn "ngOnInit(): void" spans ↔ hasInit v = true := by
  obtain ⟨more, hmore, -, -, hinit, -⟩ := angular_additions h
  exact angular_marked hspans (eval_added h hmore ⟨by rfl, by rfl, by rfl⟩ (by rfl) hinit)
    marks_checked.2.2.1 (by decide)

lemma angular_destroy : HasOwn "ngOnDestroy(): void" spans ↔ hasDestroy v = true := by
  obtain ⟨more, hmore, -, -, -, hdestroy, -⟩ := angular_additions h
  exact angular_marked hspans (eval_added h hmore ⟨by rfl, by rfl, by rfl⟩ (by rfl) hdestroy)
    marks_checked.2.2.2.1 (by decide)

lemma angular_title : HasOwn "title: Title" spans ↔ v.pageTitle.isGiven = true :=
  angular_marked hspans (eval_pageTitle (by decide) h) marks_checked.2.2.2.2.1 (by decide)

lemma angular_titleImport :
    HasOwn "import \x7b Title \x7d from '@angular/platform-browser';\n" spans ↔
      v.pageTitle.isGiven = true :=
  angular_marked hspans (eval_pageTitle (by decide) h) marks_checked.2.2.2.2.2.1 (by decide)

end Angular

end Generator

namespace Registry

variable {folder : Folder} {frameworks active : Json} {settings : Settings} {r : Registry}

/-- The main template of a generator in a new registry is written in spans, with the shared helper
for lists. -/
lemma exists_mainSpans (hr : create folder frameworks settings active = .ok r) {f : Framework}
    {config : Config} (hg : Generator.ofFramework f config ∈ r.generators) {v : View}
    {files : Table Artifact}
    (hfiles : (Generator.ofFramework f config).files
      (r.freeze.engine (Generator.ofFramework f config)) v = .ok files) :
    ∃ main fields source spans, files.get? "main" = some main ∧
      (Generator.ofFramework f config).contextOf v = .ok fields ∧
      Json.member (Target.ofFramework f).templates (if v.page then "page" else "component") =
        .str source ∧
      spansAll (r.store.helpersFor (some f.key)) (.obj fields) (compile source) = .ok spans ∧
      main.content = tidy (spansText spans) ∧
      (r.store.helpersFor (some f.key)).lookup "join" = some Helper.join := by
  obtain ⟨fields, source, text, hfields, hsource, htext, hmain⟩ :=
    Generator.exists_main (stocks_create hr _ hg) hfiles
  rw [renderAll_eq_spans] at htext
  obtain ⟨spans, hspans, rfl⟩ := map_eq_ok_iff.1 htext
  refine ⟨_, fields, source, spans, hmain, hfields, hsource, hspans, rfl, ?_⟩
  have hhelpers := helpersFor_create hr hg
  rw [framework_ofFramework] at hhelpers
  rw [hhelpers]
  have hown : "join" ∉ Table.keys (Target.ownHelpers f) := by cases f <;> decide
  exact (Table.get?_merge_of_notMem hown).trans rfl

/-- A main file imports exactly those primitives of its framework that the texts of its template
use. -/
theorem primitives_imported_iff_used (hr : create folder frameworks settings active = .ok r)
    {s : Subject} {o : Options} {g : Generator} (hg : r.resolve o.framework = .ok g) {v : View}
    (hview : g.view s o = .ok v) :
    (∀ files, g.files (r.freeze.engine g) v = .ok files →
      ∃ main spans, files.get? "main" = some main ∧ g.WritesMain r v spans ∧
        main.content = tidy (spansText spans) ∧
        (g.framework = .react →
          (∀ name, Imports "react" spans name → name ∈ ["useState", "useEffect"]) ∧
          (Imports "react" spans "useState" ↔ HasOwn "] = useState" spans) ∧
          (Imports "react" spans "useEffect" ↔ HasOwn "useEffect(" spans)) ∧
        (g.framework = .vue →
          (∀ name, Imports "vue" spans name → name ∈ ["ref", "onMounted", "onUnmounted", "watch"]) ∧
          (Imports "vue" spans "ref" ↔ HasOwn " = ref" spans) ∧
          (Imports "vue" spans "onMounted" ↔ HasOwn "onMounted(" spans) ∧
          (Imports "vue" spans "onUnmounted" ↔ HasOwn "onUnmounted(" spans) ∧
          (Imports "vue" spans "watch" ↔ HasOwn "watch([" spans)) ∧
        (g.framework = .angular →
          (∀ name, Imports "@angular/core" spans name →
            name ∈ ["Component", "Input", "OnInit", "OnDestroy"]) ∧
          (Imports "@angular/core" spans "Input" ↔ HasOwn "@Input()" spans) ∧
          (Imports "@angular/core" spans "OnInit" ↔ Implements spans "OnInit") ∧
          (Implements spans "OnInit" ↔ HasOwn "ngOnInit(): void" spans) ∧
          (Imports "@angular/core" spans "OnDestroy" ↔ Implements spans "OnDestroy") ∧
          (Implements spans "OnDestroy" ↔ HasOwn "ngOnDestroy(): void" spans) ∧
          (HasOwn "import \x7b Title \x7d from '@angular/platform-browser';\n" spans ↔
            HasOwn "title: Title" spans))) ∧
    (o.optimize.isGiven = false → ∀ code, (r.generate s o).2 = .ok code →
      g.files (r.freeze.engine g) v = .ok code.files) := by
  have hmem := mem_of_resolve hg
  obtain ⟨f, config, rfl, -⟩ := id (stocks_create hr g hmem)
  refine ⟨fun files hfiles => ?_, fun ho code => files_of_view hg hview ho⟩
  obtain ⟨main, fields, source, spans, hmain, hfields, hsource, hspans, hcontent, hjoin⟩ :=
    exists_mainSpans hr hmem hfiles
  refine ⟨main, spans, hmain, ⟨fields, source, hfields, hsource, ?_⟩, hcontent, ?_⟩
  · rwa [framework_ofFramework]
  rw [framework_ofFramework]
  refine ⟨?_, ?_, ?_⟩
  · rintro rfl
    rw [Generator.compile_reactMain hsource] at hspans
    simp only [Generator.react_imports hfields hspans hjoin, Generator.react_state hfields hspans,
      Generator.react_effect hfields hspans]
    refine ⟨fun name hname => Target.React.hooks_subset v hname, ?_⟩
    simp [Target.React.hooks]
  · rintro rfl
    have hcompile : compile source = Target.Vue.mainNodes := by
      obtain rfl : ofLines Target.Vue.componentLines = source := by
        cases hpage : v.page <;> rw [hpage] at hsource <;> exact Json.str.inj hsource
      exact Target.Vue.compile_main
    rw [hcompile] at hspans
    simp only [Generator.vue_imports hfields hspans hjoin, Generator.vue_state hfields hspans,
      Generator.vue_mount hfields hspans, Generator.vue_unmount hfields hspans,
      Generator.vue_watch hfields hspans]
    refine ⟨fun name hname => Target.Vue.primitives_subset v hname, ?_⟩
    simp [Target.Vue.primitives]
  · rintro rfl
    have hcompile : compile source = Target.Angular.mainNodes := by
      obtain rfl : ofLines Target.Angular.classLines = source := by
        cases hpage : v.page <;> rw [hpage] at hsource <;> exact Json.str.inj hsource
      exact Target.Angular.compile_main
    rw [hcompile] at hspans
    simp only [Generator.angular_imports hfields hspans hjoin,
      Generator.angular_implements hfields hspans hjoin, Generator.angular_input hfields hspans,
      Generator.angular_init hfields hspans, Generator.angular_destroy hfields hspans,
      Generator.angular_titleImport hfields hspans, Generator.angular_title hfields hspans]
    refine ⟨fun name hname => Target.Angular.coreImports_subset v hname, ?_⟩
    simp [Target.Angular.coreImports, Target.Angular.lifecycle]

def counting : Schema.Tree := .node ⟨"a", "div", [("state", .obj [("count", .int 0)])], [], .null⟩ []

theorem primitives_imported_iff_used_counting :
    ∃ r g v code main spans, create {} (.arr [.str "react"]) (.layers .null) .null = .ok r ∧
      r.resolve none = .ok g ∧ g.view (.component (.tree counting)) {} = .ok v ∧
      (r.generate (.component (.tree counting)) {}).2 = .ok code ∧
      code.files.get? "main" = some main ∧ g.WritesMain r v spans ∧
      main.content = tidy (spansText spans) ∧ HasOwn "] = useState" spans ∧
      Imports "react" spans "useState" ∧ ¬ Imports "react" spans "useEffect" := by
  let check (v : View) : Bool :=
    !v.parts.state.isEmpty && v.parts.effects.isEmpty && !v.setsTitle
  obtain ⟨r, g, v, code, hr, hg, hview, hcheck, hcode, hreact, -⟩ :=
    Generator.exists_code (s := .component (.tree counting)) (o := {}) (fun _ _ => check) rfl rfl
      (by decide +kernel)
  simp only [check, Bool.and_eq_true, Bool.not_eq_true', List.isEmpty_eq_false_iff,
    List.isEmpty_iff] at hcheck
  obtain ⟨⟨hstate, heffects⟩, htitle⟩ := hcheck
  obtain ⟨hall, hfiles⟩ := primitives_imported_iff_used hr hg hview
  obtain ⟨main, spans, hmain, hwrites, hcontent, hprimitives, -⟩ := hall _ (hfiles rfl code hcode)
  obtain ⟨-, huseState, huseEffect⟩ := hprimitives hreact
  obtain ⟨fields, source, hfields, hsource, hspans⟩ := id hwrites
  obtain ⟨f, config, rfl, -⟩ := id (stocks_create hr g (mem_of_resolve hg))
  rw [framework_ofFramework] at hreact
  subst hreact
  rw [Generator.compile_reactMain hsource] at hspans
  have hown := (Generator.react_state hfields hspans).2 hstate
  refine ⟨r, _, v, code, main, spans, hr, hg, hview, hcode, hmain, hwrites, hcontent, hown,
    huseState.2 hown, ?_⟩
  rw [huseEffect, Generator.react_effect hfields hspans]
  simp [heffects, htitle]

end Registry

end ViewWriter
