import ViewWriter.Generator.Request
import ViewWriter.Proofs.Generator.Registered
import ViewWriter.Proofs.Table
import ViewWriter.Proofs.Template.Following
import ViewWriter.Proofs.Template.Totality

/-! Serving a request by a generator as it comes: the context of its templates, and what the templates
that its registry has in store write. -/

namespace ViewWriter

open ViewWriter.Text ViewWriter.Analysis ViewWriter.Template

namespace Target

/-- The names under which a target adds to a context or writes over it. -/
def additionKeys : Framework → List String
  | .react =>
    ["effects", "functions", "hasBody", "hooks", "hasHooks", "propsSignature", "jsxContent"]
  | .vue => ["vueImports", "hasVueImports", "props"]
  | .angular =>
    ["className", "selector", "imports", "hasImports", "standaloneImports", "coreImports",
      "lifecycle", "hasInit", "hasDestroy", "props", "typescript"]
  | .html => ["scopeNames", "hasScript", "isModule"]

variable {f : Framework} {config : Config} {v : View} {more : Table Json}

lemma keys_additions (h : (ofFramework f).additions config v = .ok more) :
    more.keys = additionKeys f := by
  cases f with
  | react =>
    have hreact : React.additions config v = .ok more := h
    obtain rfl := Except.ok.inj hreact
    rfl
  | vue =>
    have hvue : Vue.additions config v = .ok more := h
    obtain ⟨props, -, hvue⟩ := bind_eq_ok_iff.1 hvue
    obtain rfl := Except.ok.inj hvue
    rfl
  | angular =>
    have hangular : Angular.additions config v = .ok more := h
    obtain ⟨selectorPrefix, -, hangular⟩ := bind_eq_ok_iff.1 hangular
    obtain rfl := Except.ok.inj hangular
    rfl
  | html =>
    have hhtml : Html.additions config v = .ok more := h
    obtain rfl := Except.ok.inj hhtml
    rfl

/-! The lists of names that targets add. -/

lemma React.hooks_subset (v : View) : hooks v ⊆ ["useState", "useEffect"] := by
  intro x hx
  simp only [hooks, List.mem_append] at hx
  rcases hx with hx | hx <;> split_ifs at hx <;> simp_all

lemma Vue.primitives_subset (v : View) :
    primitives v ⊆ ["ref", "onMounted", "onUnmounted", "watch"] := by
  intro x hx
  simp only [primitives, List.mem_append] at hx
  rcases hx with ((hx | hx) | hx) | hx <;> split_ifs at hx <;> simp_all

lemma Angular.coreImports_subset (v : View) :
    coreImports v ⊆ ["Component", "Input", "OnInit", "OnDestroy"] := by
  intro x hx
  simp only [coreImports, lifecycle, List.mem_append] at hx
  rcases hx with (hx | hx) | hx | hx
  · simp_all
  all_goals split_ifs at hx <;> simp_all

end Target

namespace View

variable (v : View)

lemma toContext_eq : v.toContext = v.parts.toContext ++ [
    ("typescript", v.typescript), ("description", v.description), ("isModule", v.isModule),
    ("pageName", v.pageName), ("pageTitle", v.pageTitle), ("fileName", .str v.files.main),
    ("styleFile", .str v.files.styles),
    ("moduleName", .str (FileNames.withoutExtension v.files.main))] := by
  refine Table.merge_of_disjoint ?_ ?_
  · simp [Table.keys]
  · simp [Table.keys, Parts.toContext]

lemma nodup_toContext : v.toContext.keys.Nodup := by
  rw [toContext_eq]
  simp [Table.keys, Parts.toContext]

end View

namespace Generator

variable {f : Framework} {config : Config} {v : View} {fields : Table Json}

/-- A path to what no target writes over leads to what the view has there. -/
lemma resolve_context (h : (ofFramework f config).contextOf v = .ok fields) {path : String}
    (key : String) (hpath : segments path = [key]) (hkey : key ∉ Target.additionKeys f) {value : Json}
    (hmem : (key, value) ∈ v.toContext) :
    fields.get? key = some value ∧ resolvePath path (.obj fields) = .ok value := by
  obtain ⟨more, hmore, rfl⟩ := map_eq_ok_iff.1 h
  have hmember : (v.toContext.merge more).get? key = some value := by
    rw [Table.get?_merge_of_notMem (Target.keys_additions hmore ▸ hkey),
      Table.get?_of_mem v.nodup_toContext hmem]
  refine ⟨hmember, resolvePath_of_leads ?_⟩
  rw [hpath]
  exact .member hmember (.here _)

lemma resolve_added (h : (ofFramework f config).contextOf v = .ok fields) {more : Table Json}
    (hmore : (Target.ofFramework f).additions config v = .ok more) {path : String} (key : String)
    (hpath : segments path = [key]) {value : Json} (hmem : (key, value) ∈ more) :
    resolvePath path (.obj fields) = .ok value := by
  obtain ⟨more', hmore', rfl⟩ := map_eq_ok_iff.1 h
  cases hmore.symm.trans hmore'
  have hnodup : more.keys.Nodup := by
    rw [Target.keys_additions hmore']
    cases f <;> decide
  refine resolvePath_of_leads ?_
  rw [hpath]
  exact .member (Table.get?_merge_of_mem hnodup hmem) (.here _)

lemma eval_context (h : (ofFramework f config).contextOf v = .ok fields) {key : String}
    (hname : IsLookup key) (hpath : segments (trimmed key) = [key])
    (hkey : key ∉ Target.additionKeys f) {value : Json} (hmem : (key, value) ∈ v.toContext) :
    (Condition.holds key).eval (.obj fields) = .ok value.isGiven :=
  eval_holds hname (resolve_context h key hpath hkey hmem).2

lemma eval_added (h : (ofFramework f config).contextOf v = .ok fields) {more : Table Json}
    (hmore : (Target.ofFramework f).additions config v = .ok more) {key : String}
    (hname : IsLookup key) (hpath : segments (trimmed key) = [key]) {value : Json}
    (hmem : (key, value) ∈ more) :
    (Condition.holds key).eval (.obj fields) = .ok value.isGiven :=
  eval_holds hname (resolve_added h hmore key hpath hmem)

/-- What the generator of a framework renders is what the framework's template says. -/
lemma render_stocked {r : Registry} (hr : r.Stocks (ofFramework f config)) {kind source : String}
    (hkind : kind ∈ artifactKinds)
    (hsource : Json.member (Target.ofFramework f).templates kind = .str source) :
    (r.freeze.engine (ofFramework f config)).render kind (.obj fields) =
      (renderAll (r.store.helpersFor (some f.key)) (.obj fields) (compile source)).mapError
        .fault := by
  have hgenerator : (r.freeze.engine (ofFramework f config)).generator = some f.key := by
    rw [Registry.engine, Registry.framework_ofFramework]
  exact render_stored hgenerator (hr.find? hkind hsource) fields

lemma exists_artifact {r : Registry} (hr : r.Stocks (ofFramework f config)) (kind : String)
    (hkind : kind ∈ artifactKinds) {source : String}
    (hsource : Json.member (Target.ofFramework f).templates kind = .str source)
    (h : areUnfailing (compile source) = true) (fields : Table Json) (name : String) :
    ∃ a, artifact (r.freeze.engine (ofFramework f config)) (.obj fields) kind name = .ok a := by
  have hanswered : Answered (r.store.helpersFor (some f.key)) (.obj fields) (compile source) :=
    answered_of_unfailing h
  obtain ⟨text, htext⟩ := exists_renderAll (compile source) hanswered
  refine ⟨⟨name, tidy text⟩, ?_⟩
  rw [artifact, render_stocked hr hkind hsource, htext]
  rfl

lemma files_eq_ok_iff {g : Generator} {engine : Engine} {files : Table Artifact} :
    g.files engine v = .ok files ↔ ∃ fields main styles index, g.contextOf v = .ok fields ∧
      artifact engine (.obj fields) (if v.page then "page" else "component") v.files.main =
        .ok main ∧
      artifact engine (.obj fields) "styles" v.files.styles = .ok styles ∧
      artifact engine (.obj fields) "index" v.files.index = .ok index ∧
      files = [("main", main), ("styles", styles), ("index", index)] := by
  constructor
  · intro h
    obtain ⟨fields, hfields, h⟩ := bind_eq_ok_iff.1 h
    obtain ⟨main, hmain, h⟩ := bind_eq_ok_iff.1 h
    obtain ⟨styles, hstyles, h⟩ := bind_eq_ok_iff.1 h
    obtain ⟨index, hindex, h⟩ := bind_eq_ok_iff.1 h
    cases h
    exact ⟨fields, main, styles, index, mapError_eq_ok_iff.1 hfields, hmain, hstyles, hindex, rfl⟩
  · rintro ⟨fields, main, styles, index, hfields, hmain, hstyles, hindex, rfl⟩
    exact bind_eq_ok_iff.2 ⟨fields, mapError_eq_ok_iff.2 hfields, bind_eq_ok_iff.2 ⟨main, hmain,
      bind_eq_ok_iff.2 ⟨styles, hstyles, bind_eq_ok_iff.2 ⟨index, hindex, rfl⟩⟩⟩⟩

lemma exists_mainSource (f : Framework) (page : Bool) :
    (if page then "page" else "component") ∈ artifactKinds ∧ ∃ source,
      Json.member (Target.ofFramework f).templates (if page then "page" else "component") =
        .str source := by
  refine ⟨by cases page <;> decide, ?_⟩
  cases f <;> cases page <;> exact ⟨_, rfl⟩

lemma exists_main {r : Registry} (hr : r.Stocks (ofFramework f config)) {files : Table Artifact}
    (h : (ofFramework f config).files (r.freeze.engine (ofFramework f config)) v = .ok files) :
    ∃ fields source text, (ofFramework f config).contextOf v = .ok fields ∧
      Json.member (Target.ofFramework f).templates (if v.page then "page" else "component") =
        .str source ∧
      renderAll (r.store.helpersFor (some f.key)) (.obj fields) (compile source) = .ok text ∧
      files.get? "main" = some ⟨v.files.main, tidy text⟩ := by
  obtain ⟨fields, main, styles, index, hfields, hmain, -, -, rfl⟩ := files_eq_ok_iff.1 h
  obtain ⟨text, htext, hmain⟩ := bind_eq_ok_iff.1 hmain
  cases hmain
  obtain ⟨hkind, source, hsource⟩ := exists_mainSource f v.page
  have hrender := mapError_eq_ok_iff.1 htext
  rw [render_stocked hr hkind hsource] at hrender
  exact ⟨fields, source, text, hfields, hsource, mapError_eq_ok_iff.1 hrender,
    by rw [Table.get?_cons, if_pos rfl]⟩

end Generator

namespace Registry

variable {folder : Folder} {frameworks active : Json} {settings : Settings} {r : Registry}
  {s : Subject} {o : Options} {code : Code}

lemma files_of_generate (ho : o.optimize.isGiven = false) (h : (r.generate s o).2 = .ok code) :
    ∃ g v, r.resolve o.framework = .ok g ∧ g.view s o = .ok v ∧
      g.files (r.freeze.engine g) v = .ok code.files ∧ code.framework = g.framework := by
  rw [generate] at h
  split at h
  · cases h
  · rename_i g hg
    obtain ⟨v, hv, h⟩ := bind_eq_ok_iff.1 h
    obtain ⟨written, hwritten, h⟩ := bind_eq_ok_iff.1 h
    rw [if_neg (by simp [ho])] at h
    cases h
    obtain ⟨files, hfiles, hwritten⟩ := bind_eq_ok_iff.1 hwritten
    obtain ⟨warnings, -, hwritten⟩ := bind_eq_ok_iff.1 hwritten
    cases hwritten
    exact ⟨g, v, hg, hv, hfiles, rfl⟩

lemma files_of_view {g : Generator} {v : View} (hg : r.resolve o.framework = .ok g)
    (hview : g.view s o = .ok v) (ho : o.optimize.isGiven = false)
    (h : (r.generate s o).2 = .ok code) : g.files (r.freeze.engine g) v = .ok code.files := by
  obtain ⟨g', v', hg', hview', hfiles, -⟩ := files_of_generate ho h
  cases hg.symm.trans hg'
  cases hview.symm.trans hview'
  exact hfiles

end Registry

end ViewWriter
