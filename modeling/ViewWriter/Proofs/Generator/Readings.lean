import ViewWriter.Proofs.Generator.Filling
import ViewWriter.Proofs.Generator.Serving

/-! Contexts of views under a reading. What the targets add is put together from texts of the view. -/

namespace ViewWriter

open ViewWriter.Text ViewWriter.Analysis ViewWriter.Template

/-- What is read of a view avoids a needle. -/
structure View.Spares (v : View) (F : Filling) (n : Needle) : Prop where
  state : ∀ x ∈ v.parts.state, x.Avoids n
  effects : ∀ x ∈ v.parts.effects, x.Avoids n
  props : "props" ∈ F.loops → ∀ x ∈ v.parts.props, x.Avoids n
  functions : ∀ x ∈ v.parts.functions, x.Avoids n
  imports : ∀ x ∈ v.parts.imports, x.Avoids n
  markup : n.Avoids v.parts.markup.toList
  name : "componentName" ∈ F.keys → v.name.Avoids n
  named : F.named = true → '/' ∉ (stringify v.name).toList
  stateTypes : F.typed = true → ∀ x ∈ v.parts.state, ¬ n.Continues (stringify x.type).toList
  propTypes : F.typed = true → "props" ∈ F.loops → ∀ x ∈ v.parts.props,
    ¬ n.Continues (stringify x.type).toList
  description : "description" ∈ F.keys → v.description.Avoids n
  pageName : "pageName" ∈ F.keys → v.pageName.Avoids n
  pageTitle : "pageTitle" ∈ F.keys → v.pageTitle.Avoids n
  styleFile : "styleFile" ∈ F.keys → n.Avoids v.files.styles.toList
  language : F.language = true → ∀ w, Leads (.obj v.parts.custom) ["lang"] w → w.Avoids n

namespace Filling

variable {F : Filling} {n : Needle} {v : View} {config : Config} {more : Table Json}

lemma takes_toContext (hF : F.Formed) (h : v.Spares F n) :
    ∀ e ∈ v.toContext, F.Takes n e := by
  have hunread {key : String} {w : Json} (hkey : key ∉ special ++ singles) : F.Takes n (key, w) :=
    takes_unread hF (fun h => hkey (List.mem_append_left _ h))
      fun h => hkey (List.mem_append_right _ h)
  have hobjects {α : Type} {key : String} {toFields : α → Table Json} {xs : List α}
      (hkey : key ∈ lists) (hxs : key ∈ F.loops → ∀ x ∈ xs, F.Suits n (toFields x)) :
      F.Takes n (key, objects (xs.map toFields)) :=
    takes_objects hF hkey fun hloop => List.forall_mem_map.2 (hxs hloop)
  have hbool {key : String} (hkey : key ∉ special) (b : Bool) : F.Takes n (key, .bool b) :=
    takes_bool hF hkey b
  rw [View.toContext_eq, Parts.toContext]
  simp only [List.cons_append, List.nil_append, List.forall_mem_cons]
  refine ⟨⟨h.name, fun hnamed _ => h.named hnamed, fun _ hk => absurd hk (by simp),
      fun hk => absurd (hF.loops hk) (by simp [lists])⟩, hbool (by decide) _, hbool (by decide) _,
    hbool (by decide) _, hbool (by decide) _, hbool (by decide) _, hbool (by decide) _,
    hobjects (by decide) fun _ x hx => ?_, hobjects (by decide) fun _ x hx => ?_,
    hobjects (by decide) fun hloop x hx => ?_, hunread (by decide),
    hobjects (by decide) fun _ x hx => ?_, hobjects (by decide) fun _ x hx => ?_,
    hunread (by decide), takes_single hF (by decide) fun _ => Json.avoids_str.2 h.markup,
    ⟨fun hk => absurd (hF.keys hk) (by simp [singles]), fun _ hk => absurd hk (by simp),
      fun hlanguage _ => h.language hlanguage, fun hk => absurd (hF.loops hk) (by simp [lists])⟩,
    hunread (by decide), takes_single hF (by decide) h.description, hunread (by decide),
    takes_single hF (by decide) h.pageName, takes_single hF (by decide) h.pageTitle,
    hunread (by decide),
    takes_single hF (by decide) fun hk => Json.avoids_str.2 (h.styleFile hk), hunread (by decide),
    fun _ he => by cases he⟩
  · exact suits_stateVariable (h.state x hx) fun ht => h.stateTypes ht x hx
  · exact suits_effect (h.effects x hx)
  · exact suits_property (h.props hloop x hx) fun ht => h.propTypes ht hloop x hx
  · exact suits_import (h.imports x hx)
  · exact suits_function (h.functions x hx)

/-! What the targets add. -/

lemma suits_append {item : Table Json} {key : String} {w : Json} (h : F.Suits n item)
    (hkey : key ∉ ["name", "setter", "type"]) (hslash : '/' ∉ key.toList) (hw : w.Avoids n) :
    F.Suits n (item ++ [(key, w)]) := by
  simp only [List.mem_cons, List.not_mem_nil, or_false, not_or] at hkey
  exact List.forall_mem_append.2 ⟨h, List.forall_mem_singleton.2
    ⟨Needle.avoids_of_notMem_slash hslash, hw,
      fun hnamed => absurd hnamed (not_or.2 ⟨hkey.1, hkey.2.1⟩), fun _ ht => absurd ht hkey.2.2⟩⟩

lemma takes_withGaps (hF : F.Formed) {key : String} (hkey : key ∈ lists) (preceded : Bool)
    {blocks : List (Table Json)} (h : ∀ b ∈ blocks, F.Suits n b) :
    F.Takes n (key, Target.React.withGaps preceded blocks) := by
  refine takes_objects hF hkey fun _ t ht => ?_
  obtain ⟨i, hi, rfl⟩ := List.mem_mapIdx.1 ht
  intro e he
  rcases Table.mem_of_mem_set he with rfl | he
  · exact ⟨Needle.avoids_of_notMem_slash (by simp), Json.avoids_bool _, fun hk => by simp at hk,
      fun _ hk => by simp at hk⟩
  · exact h _ (List.getElem_mem hi) e he

lemma avoids_signature (hprops : ∀ x ∈ v.parts.props, x.Avoids n)
    (hname : Name.IsNamed v.name.display) : n.Avoids (Target.React.signature v).toList := by
  rw [Target.React.signature]
  have hpatterns : n.Avoids (join ", " (v.parts.props.map (·.pattern))).toList :=
    avoids_joinCommas (List.forall_mem_map.2 fun p hp => (hprops p hp).pattern)
  have htype : n.Avoids (if v.typescript.isGiven then ": " ++ v.name.display ++ "Props" else "").toList := by
    split_ifs
    · rw [String.append_assoc]
      exact ((hname.append (by decide)).avoids n).preceded (by decide)
    · exact Needle.avoids_nil
  by_cases hempty : v.parts.props.isEmpty = true
  · rw [if_pos hempty]
    exact Needle.avoids_nil
  · rw [if_neg hempty]
    exact (hpatterns.preceded (by decide)).joined (by decide) htype

lemma avoids_hooks : ∀ x ∈ Target.React.hooks v, n.Avoids x.toList := by
  have hplain : ∀ x ∈ ["useState", "useEffect"], '/' ∉ x.toList := by decide
  exact fun x hx => Needle.avoids_of_notMem_slash (hplain x (Target.React.hooks_subset v hx))

lemma takes_react (hF : F.Formed) (h : v.Spares F n) (hprops : "props" ∈ F.loops)
    (hname : Name.IsNamed v.name.display)
    (hmore : (Target.ofFramework .react).additions config v = .ok more) :
    ∀ e ∈ more, F.Takes n e := by
  have hreact : Target.React.additions config v = .ok more := hmore
  obtain rfl := Except.ok.inj hreact
  simp only [List.forall_mem_cons]
  refine ⟨takes_withGaps hF (by decide) _ (List.forall_mem_map.2 fun x hx => ?_),
    takes_withGaps hF (by decide) _ (List.forall_mem_map.2 fun x hx => ?_),
    takes_bool hF (by decide) _, takes_strings hF (by decide) avoids_hooks,
    takes_bool hF (by decide) _,
    takes_single hF (by decide) fun _ => Json.avoids_str.2 (avoids_signature (h.props hprops) hname),
    takes_single hF (by decide) fun _ => Json.avoids_str.2 h.markup, fun _ he => by cases he⟩
  · exact suits_effect (h.effects x hx)
  · exact suits_function (h.functions x hx)

lemma avoids_primitives : ∀ x ∈ Target.Vue.primitives v, n.Avoids x.toList := by
  have hplain : ∀ x ∈ ["ref", "onMounted", "onUnmounted", "watch"], '/' ∉ x.toList := by decide
  exact fun x hx => Needle.avoids_of_notMem_slash (hplain x (Target.Vue.primitives_subset v hx))

lemma avoids_runtimeDefault {w : Json} (h : w.Avoids n) :
    n.Avoids (Target.Vue.runtimeDefault w).toList := by
  rw [Target.Vue.runtimeDefault.eq_def]
  split
  · exact ((avoids_literal h).preceded (by decide)).followed (by decide)
  · exact ((avoids_literal h).preceded (by decide)).followed (by decide)
  · exact avoids_literal h

lemma avoids_runtime {p : Property} {text : String} (h : p.Avoids n)
    (htext : Target.Vue.runtime p = .ok text) : n.Avoids text.toList := by
  obtain ⟨type, htype, htext⟩ := bind_eq_ok_iff.1 htext
  have hword : '/' ∉ type.toList := by
    rw [Target.Vue.runtimeType.eq_def] at htype
    split at htype
    · rename_i s _
      cases htype
      cases hs : Target.Vue.runtimeTypes.lookup s with
      | none => decide
      | some word =>
        have hplain : ∀ e ∈ Target.Vue.runtimeTypes, '/' ∉ e.2.toList := by decide
        exact hplain _ (Table.mem_of_get? hs)
    · cases htype
    · cases htype
    · cases htype
      decide
  have htype : n.Avoids ("\x7b type: " ++ type).toList :=
    (Needle.avoids_of_notMem_slash hword).preceded (by decide)
  have hclosed {more : List String} (hmore : n.Avoids (concat more).toList)
      (hstop : (concat more).toList.head?.all isStop = true) :
      n.Avoids ("\x7b type: " ++ type ++ concat more ++ " \x7d").toList := by
    refine Needle.Avoids.followed ?_ (by decide)
    rw [String.toList_append]
    exact htype.append hmore (Needle.apart_of_stop ((Option.all_eq_true _ _).1 hstop))
  cases htext
  cases hdefault : p.default with
  | none =>
    have hmore (b : Bool) : '/' ∉ (concat (if b then [] else [", required: true"])).toList ∧
        (concat (if b then [] else [", required: true"])).toList.head?.all isStop = true := by
      revert b
      decide
    exact hclosed (Needle.avoids_of_notMem_slash (hmore p.optional).1) (hmore p.optional).2
  | some w =>
    refine hclosed ?_ (by simp [toList_concat]; decide)
    rw [toList_concat, List.flatMap_singleton]
    exact (avoids_runtimeDefault (h.default w hdefault)).preceded (by decide)

lemma takes_vue (hF : F.Formed) (h : v.Spares F n)
    (hmore : (Target.ofFramework .vue).additions config v = .ok more) :
    ∀ e ∈ more, F.Takes n e := by
  have hvue : Target.Vue.additions config v = .ok more := hmore
  obtain ⟨props, hprops, hvue⟩ := bind_eq_ok_iff.1 hvue
  obtain rfl := Except.ok.inj hvue
  simp only [List.forall_mem_cons]
  refine ⟨takes_strings hF (by decide) avoids_primitives, takes_bool hF (by decide) _,
    takes_objects hF (by decide) fun hloop t ht => ?_, fun _ he => by cases he⟩
  obtain ⟨p, hp, ht⟩ := exists_of_mem_right (mapM_eq_ok_iff.1 hprops) ht
  obtain ⟨text, htext, ht⟩ := bind_eq_ok_iff.1 ht
  cases ht
  exact suits_append (suits_property (h.props hloop p hp) fun hk => h.propTypes hk hloop p hp) (by decide)
    (by decide) (Json.avoids_str.2 (avoids_runtime (h.props hloop p hp) htext))

lemma avoids_declaration {p : Property} (h : p.Avoids n) :
    n.Avoids (Target.Angular.declaration p).toList := by
  have hname := h.name.avoids n
  rw [Target.Angular.declaration]
  cases hdefault : p.default with
  | none =>
    have htype (mark : String) (hmark : isGap (mark ++ ": ").toList = true) :
        n.Avoids (p.name ++ mark ++ ": " ++ p.type.display).toList := by
      rw [show p.name ++ mark ++ ": " = p.name ++ (mark ++ ": ") from String.append_assoc]
      exact hname.joined hmark h.type.display
    split_ifs
    · exact htype "?" (by decide)
    · exact htype "!" (by decide)
  | some w =>
    exact (hname.joined (by decide) h.type.display).joined (by decide)
      (avoids_literal (h.default w hdefault))

lemma avoids_coreImports : ∀ x ∈ Target.Angular.coreImports v, n.Avoids x.toList := by
  have hplain : ∀ x ∈ ["Component", "Input", "OnInit", "OnDestroy"], '/' ∉ x.toList := by decide
  exact fun x hx => Needle.avoids_of_notMem_slash (hplain x (Target.Angular.coreImports_subset v hx))

section Components

variable (hbeside : ∀ name, Name.IsNamed name → n.Avoids ("./" ++ name ++ ".component").toList)
include hbeside

lemma avoids_spelled {i : Import} (h : i.Avoids n) : (Target.Angular.spelled i).Avoids n := by
  rw [Target.Angular.spelled]
  split_ifs
  · refine ⟨?_, hbeside _ (Name.isNamed_kebab _)⟩
    rw [String.toList_append, List.mem_append, not_or]
    exact ⟨h.name, by decide⟩
  · exact h

lemma suits_importFields {i : Import} (h : i.Avoids n) :
    F.Suits n (Target.Angular.importFields i) := by
  have hspelled := avoids_spelled hbeside h
  intro e he
  rcases Table.mem_of_mem_merge he with he | he
  · exact suits_append (suits_import h) (by decide) (by decide) (Json.avoids_bool _) e he
  · have hname : n.Avoids (Target.Angular.spelled i).name.toList :=
      Needle.avoids_of_notMem_slash hspelled.name
    simp only [List.mem_cons, List.not_mem_nil, or_false] at he
    rcases he with rfl | rfl
    · exact ⟨Needle.avoids_of_notMem_slash (by simp), Json.avoids_str.2 hname,
        fun _ => hspelled.name, fun _ hk => by simp at hk⟩
    · exact ⟨Needle.avoids_of_notMem_slash (by simp), Json.avoids_str.2 hspelled.source,
        fun hk => by simp at hk, fun _ hk => by simp at hk⟩

lemma takes_angular (hF : F.Formed) (h : v.Spares F n)
    (hname : Name.IsNamed v.name.display)
    (hselector : ∀ start, Target.Angular.selectorPrefix config = .ok start →
      n.Avoids (start ++ "-" ++ Name.kebab v.name.display).toList)
    (hmore : (Target.ofFramework .angular).additions config v = .ok more) :
    ∀ e ∈ more, F.Takes n e := by
  have hangular : Target.Angular.additions config v = .ok more := hmore
  obtain ⟨start, hstart, hangular⟩ := bind_eq_ok_iff.1 hangular
  obtain rfl := Except.ok.inj hangular
  simp only [List.forall_mem_cons]
  refine ⟨takes_single hF (by decide) fun _ => Json.avoids_str.2 ((hname.append (by decide)).avoids n),
    takes_single hF (by decide) fun _ => Json.avoids_str.2 (hselector start hstart),
    takes_objects hF (by decide) fun _ => List.forall_mem_map.2 fun i hi => ?_,
    takes_bool hF (by decide) _,
    takes_strings hF (by decide) (List.forall_mem_cons.2 ⟨?_, List.forall_mem_map.2 fun i hi => ?_⟩),
    takes_strings hF (by decide) avoids_coreImports, takes_strings hF (by decide) fun x hx =>
      avoids_coreImports x (List.mem_append_right _ hx), takes_bool hF (by decide) _,
    takes_bool hF (by decide) _,
    takes_objects hF (by decide) fun hloop => List.forall_mem_map.2 fun p hp => ?_,
    takes_bool hF (by decide) _, fun _ he => by cases he⟩
  · exact suits_importFields hbeside (h.imports i hi)
  · exact Needle.avoids_of_notMem_slash (by decide)
  · exact Needle.avoids_of_notMem_slash
      (avoids_spelled hbeside (h.imports i (List.mem_filter.1 hi).1)).name
  · exact suits_append (suits_property (h.props hloop p hp) fun hk => h.propTypes hk hloop p hp) (by decide)
      (by decide) (Json.avoids_str.2 (avoids_declaration (h.props hloop p hp)))

end Components

lemma takes_html (hF : F.Formed) (h : v.Spares F n)
    (hmore : (Target.ofFramework .html).additions config v = .ok more) :
    ∀ e ∈ more, F.Takes n e := by
  have hhtml : Target.Html.additions config v = .ok more := hmore
  obtain rfl := Except.ok.inj hhtml
  simp only [List.forall_mem_cons]
  refine ⟨takes_strings hF (by decide) fun x hx => ?_, takes_bool hF (by decide) _,
    takes_bool hF (by decide) _, fun _ he => by cases he⟩
  simp only [Target.Html.scopeNames, List.mem_append, List.mem_flatMap, List.mem_cons, List.mem_map,
    List.not_mem_nil, or_false] at hx
  rcases hx with (⟨y, hy, rfl | rfl⟩ | ⟨y, hy, rfl⟩) | ⟨y, hy, rfl⟩
  · exact (h.state y hy).name.avoids n
  · exact (h.state y hy).setter.avoids n
  · exact (h.functions y hy).name.avoids n
  · exact Needle.avoids_of_notMem_slash (h.imports y hy).name

end Filling

section Serving

variable {F : Filling} {n : Needle} {v : View} {f : Framework} {config : Config}
  {fields : Table Json}

lemma Generator.holds_reading (hF : F.Formed) (hv : v.Spares F n)
    (hadded : ∀ more, (Target.ofFramework f).additions config v = .ok more → ∀ e ∈ more, F.Takes n e)
    (h : (ofFramework f config).contextOf v = .ok fields) : F.reading.Holds n (.obj fields) := by
  obtain ⟨more, hmore, rfl⟩ := map_eq_ok_iff.1 h
  refine Filling.holds (fun hitem => ?_) fun e he => ?_
  · obtain ⟨e, he, hkey⟩ := List.mem_map.1 hitem
    have hkeys : "item" ∈ v.toContext.keys ∨ "item" ∈ more.keys := by
      rw [← hkey]
      exact (Table.mem_of_mem_merge he).imp (List.mem_map_of_mem ·) (List.mem_map_of_mem ·)
    rcases hkeys with hkeys | hkeys
    · rw [View.toContext_eq] at hkeys
      simp [Table.keys, Parts.toContext] at hkeys
    · rw [Target.keys_additions hmore] at hkeys
      revert hkeys
      cases f <;> decide
  · rcases Table.mem_of_mem_merge he with he | he
    · exact Filling.takes_toContext hF hv e he
    · exact hadded more hmore e he

lemma Registry.standard_helpers {folder : Folder} {frameworks active : Json} {settings : Settings}
    {r : Registry} (hr : create folder frameworks settings active = .ok r)
    (hg : Generator.ofFramework f config ∈ r.generators) {name : String} {helper : Helper}
    (h : (r.store.helpersFor (some f.key)).lookup name = some helper) :
    (name, helper) ∈ standardHelpers := by
  have hhelpers := helpersFor_create hr hg
  rw [framework_ofFramework] at hhelpers
  rw [hhelpers] at h
  rcases Table.mem_of_mem_merge (Table.mem_of_get? h) with hmem | hmem
  · exact List.mem_append_left _ hmem
  · refine List.mem_append_right _ ?_
    cases f <;> (simp only [Target.ownHelpers, List.mem_cons, List.not_mem_nil, or_false] at hmem ⊢)
    · exact .inl hmem
    · exact hmem.imp_right .inl
    · exact .inr (.inr hmem)

end Serving

end ViewWriter
