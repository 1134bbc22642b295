import Mathlib.Data.List.Perm.Basic
import ViewWriter.Analysis.Basic
import ViewWriter.Proofs.Analysis.Declarations
import ViewWriter.Proofs.Analysis.Styles
import ViewWriter.Proofs.Schema.Pages

/-! What is found in nodes whatever their order. Where no two entries import one name and no two types
have one component form, the imports are those of all entries that can import and of all custom types
that no entry imports. -/

namespace ViewWriter.Analysis

open ViewWriter.Schema

variable {config : Config} {records others : List Record} {sections rest : List (List Record)}
  {found : List Import} {i : Import}

def importEntries (records : List Record) : List (Table Json) :=
  declared records "imports" "name" "source"

/-- No two entries import one name. -/
def DistinctImports (records : List Record) : Prop :=
  ((importEntries records).filterMap bindingOf?).Nodup

/-- No two types of custom nodes have one component form. -/
def DistinctComponents (records : List Record) : Prop :=
  ∀ r ∈ records, ∀ s ∈ records, r.isCustom → s.isCustom →
    componentForm r.type = componentForm s.type → r.type = s.type

instance (records : List Record) : Decidable (DistinctImports records) :=
  inferInstanceAs (Decidable (List.Nodup _))

instance (records : List Record) : Decidable (DistinctComponents records) :=
  inferInstanceAs (Decidable (∀ r ∈ records, ∀ s ∈ records, r.isCustom → s.isCustom →
    componentForm r.type = componentForm s.type → r.type = s.type))

lemma firsts_importEntries (h : DistinctImports records) :
    firstsAfter bindingOf? [] (importEntries records) =
      (importEntries records).filter fun entry => (bindingOf? entry).isSome := by
  rw [firstsAfter_of_nodup h]
  refine List.filter_congr fun entry _ => ?_
  cases bindingOf? entry <;> rfl

lemma exists_imports_iff_firsts : (∃ found, imports records sections = .ok found) ↔
    ∀ entry ∈ firstsAfter bindingOf? [] (importEntries records), ∃ i, Import.ofEntry entry = .ok i := by
  have hgiven : (∃ found, imports records sections = .ok found) ↔
      ∃ given, declaredImports records = .ok given := by
    simp only [imports, bind_eq_ok_iff]
    exact ⟨fun ⟨_, given, hgiven, _⟩ => ⟨given, hgiven⟩, fun ⟨given, hgiven⟩ => ⟨_, given, hgiven, rfl⟩⟩
  rw [hgiven, declaredImports, declaredImportsOf_eq, ← importEntries, exists_mapM_iff]

lemma exists_imports_iff (h : DistinctImports records) :
    (∃ found, imports records sections = .ok found) ↔
      ∀ entry ∈ importEntries records, (bindingOf? entry).isSome →
        ∃ i, Import.ofEntry entry = .ok i := by
  rw [exists_imports_iff_firsts, firsts_importEntries h]
  simp only [List.mem_filter, and_imp]

lemma mem_implicitImports (h : DistinctComponents records) {seen : List String} :
    i ∈ implicitImports sections seen records ↔
      ∃ r ∈ records, r.isCustom ∧ componentForm r.type ∉ seen ∧ i = Import.ofRecord sections r := by
  rw [implicitImports_eq, List.mem_map]
  constructor
  · rintro ⟨r, hr, rfl⟩
    obtain ⟨name, hname⟩ := exists_name_of_mem hr
    have hnew := (exists_firstsAfter.1 ⟨r, hr, hname⟩).1
    obtain ⟨hcustom, rfl⟩ := componentOf?_eq_some_iff.1 hname
    exact ⟨r, (firstsAfter_sublist seen records).subset hr, hcustom, hnew, rfl⟩
  · rintro ⟨r, hr, hcustom, hnew, rfl⟩
    obtain ⟨s, hs, hname⟩ := exists_firstsAfter.2
      ⟨hnew, r, hr, componentOf?_eq_some_iff.2 ⟨hcustom, rfl⟩⟩
    obtain ⟨hother, hform⟩ := componentOf?_eq_some_iff.1 hname
    have hsame : s.type = r.type :=
      h s ((firstsAfter_sublist seen records).subset hs) r hr hother hcustom hform
    exact ⟨s, hs, by rw [Import.ofRecord, Import.ofRecord, hsame]⟩

lemma mem_imports_iff (himports : DistinctImports records) (hcomponents : DistinctComponents records)
    (h : imports records sections = .ok found) : i ∈ found ↔
      (∃ entry ∈ importEntries records, (bindingOf? entry).isSome ∧ Import.ofEntry entry = .ok i) ∨
      ∃ r ∈ records, r.isCustom ∧
        componentForm r.type ∉ (importEntries records).filterMap bindingOf? ∧
        i = Import.ofRecord sections r := by
  obtain ⟨given, hgiven, h⟩ := bind_eq_ok_iff.1 h
  cases h
  have hnames : given.map (·.name) = (importEntries records).filterMap bindingOf? := by
    rw [names_of_declaredImports hgiven, ← importEntries, firsts_importEntries himports,
      List.filterMap_filter]
    refine List.filterMap_congr fun entry _ => ?_
    cases hname : bindingOf? entry <;> simp
  rw [List.mem_append, mem_implicitImports hcomponents, hnames]
  refine or_congr_left ?_
  rw [declaredImports, declaredImportsOf_eq, ← importEntries, firsts_importEntries himports] at hgiven
  rw [mem_of_mapM hgiven]
  simp only [List.mem_filter, and_assoc]

section Order

lemma importEntries_perm (h : records.Perm others) :
    (importEntries records).Perm (importEntries others) := h.flatMap_right _

lemma DistinctImports.perm (h : records.Perm others) (hd : DistinctImports records) :
    DistinctImports others := ((importEntries_perm h).filterMap _).nodup_iff.1 hd

lemma DistinctComponents.perm (h : records.Perm others) (hd : DistinctComponents records) :
    DistinctComponents others :=
  fun r hr s hs => hd r (h.mem_iff.2 hr) s (h.mem_iff.2 hs)

lemma share_perm (h : sections.Perm rest) (type : String) : share sections type = share rest type := by
  rw [share, share, usage, usage, h.countP_eq, h.length_eq]

/-- The imports of nodes in another order, with sections in another order, are the same. -/
lemma imports_perm {more : List Import} (hrecords : records.Perm others) (hsections : sections.Perm rest)
    (himports : DistinctImports records) (hcomponents : DistinctComponents records)
    (h : imports records sections = .ok found) (hmore : imports others rest = .ok more) :
    more.Perm found := by
  have hentries := importEntries_perm hrecords
  rw [List.perm_ext_iff_of_nodup (nodup_imports hmore).of_map (nodup_imports h).of_map]
  intro i
  rw [mem_imports_iff himports hcomponents h,
    mem_imports_iff (himports.perm hrecords) (hcomponents.perm hrecords) hmore]
  simp only [hentries.mem_iff, hrecords.mem_iff, (hentries.filterMap _).mem_iff, Import.ofRecord,
    share_perm hsections]

end Order

end ViewWriter.Analysis

/-! Sections of a page in another order. The imports stay the same, and the weight of a component is the
share of the sections that use it. -/

namespace ViewWriter.Analysis

open ViewWriter.Schema ViewWriter.Schema.Arena

/-- What the analysis asks of nodes and of the sections they are in. -/
structure Analyzable (config : Config) (records : List Record) (sections : List (List Record)) :
    Prop where
  classes : ∃ classes, classNames config records = .ok classes
  effects : ∃ found, effects records = .ok found
  functions : ∃ found, functions records = .ok found
  imports : ∃ found, imports records sections = .ok found
  custom : ∃ custom, config.custom.table = .ok custom

/-- The number of sections in which a node has a type. -/
def sectionsWith (trees : List Tree) (type : String) : ℕ :=
  trees.countP fun t => t.records.any (·.type == type)

variable {dialect : Markup.Dialect} {unit : String} {config : Config} {sections : List Source}
  {trees others : List Tree} {records more : List Record} {p : Parts} {a : Arena}

section Nodes

variable {root : String} {ids : List String} {parts : List (List Record)} {t : Tree}

lemma analyzable_of_ofArena (hwalk : a.walkAt root = .ok records) (hparts : ids.mapM a.walkAt = .ok parts)
    (h : ofArena dialect unit config a root ids = .ok p) :
    Analyzable config records parts ∧ imports records parts = .ok p.imports := by
  simp only [ofArena, fromSchema, fromFault, bind_eq_ok_iff, mapError_eq_ok_iff, hwalk, hparts] at h
  obtain ⟨_, hrecords, record, -, classes, hclasses, effects, heffects, functions, hfunctions, _,
    hsections, imports, himports, tree, -, custom, hcustom, h⟩ := h
  cases hrecords
  cases hsections
  cases h
  exact ⟨⟨⟨_, hclasses⟩, ⟨_, heffects⟩, ⟨_, hfunctions⟩, ⟨_, himports⟩, ⟨_, hcustom⟩⟩, himports⟩

lemma exists_ofArena (hwalk : a.walkAt root = .ok records) (ht : a.toTree root = .ok t)
    (hparts : ids.mapM a.walkAt = .ok parts) (h : Analyzable config records parts) :
    ∃ p, ofArena dialect unit config a root ids = .ok p := by
  obtain ⟨⟨classes, hclasses⟩, ⟨effects, heffects⟩, ⟨functions, hfunctions⟩, ⟨imports, himports⟩,
    ⟨custom, hcustom⟩⟩ := h
  obtain ⟨record, hnode⟩ := exists_node_of_toTree ht
  simp only [ofArena, fromSchema, fromFault, bind_eq_ok_iff, mapError_eq_ok_iff, hwalk, hparts]
  exact ⟨_, _, rfl, _, hnode, _, hclasses, _, heffects, _, hfunctions, _, rfl, _, himports, _, ht, _,
    hcustom, rfl⟩

end Nodes

section Pages

def pageRecords (trees : List Tree) : List Record := (pageTree pageRoot pageType trees).records

lemma mem_pageRecords {r : Record} (hcustom : r.isCustom = true) :
    r ∈ pageRecords trees ↔ r ∈ Tree.recordsOf trees := by
  refine List.mem_cons.trans (or_iff_right ?_)
  rintro rfl
  exact absurd hcustom (by decide +kernel)

lemma distinctComponents_pageRecords (h : DistinctComponents (Tree.recordsOf trees)) :
    DistinctComponents (pageRecords trees) :=
  fun r hr s hs hrc hsc => h r ((mem_pageRecords hrc).1 hr) s ((mem_pageRecords hsc).1 hs) hrc hsc

lemma parts_page (ha : a.Stands [pageTree pageRoot pageType trees]) :
    (a.childrenOf pageRoot).mapM a.walkAt = .ok (trees.map (·.records)) :=
  childrenOf_page ha ▸ walkAt_sections ha

lemma exists_ofArena_page (ha : a.Stands [pageTree pageRoot pageType trees])
    (h : Analyzable config (pageRecords trees) (trees.map (·.records))) :
    ∃ p, ofArena dialect unit config a pageRoot (a.childrenOf pageRoot) = .ok p := by
  have hwalk := walkAt_page ha
  obtain ⟨t, ht, -⟩ := ha.exists_toTree hwalk
  exact exists_ofArena hwalk ht (parts_page ha) h

lemma exists_trees_of_ofPage (hs : ∀ s ∈ sections, s.Standing)
    (h : ofPage dialect unit config sections = .ok p) :
    ∃ trees, List.Forall₂ Source.IsTree sections trees ∧ (pageRoot :: idsOf trees).Nodup ∧
      Analyzable config (pageRecords trees) (trees.map (·.records)) ∧
      imports (pageRecords trees) (trees.map (·.records)) = .ok p.imports := by
  simp only [ofPage, fromSchema, bind_eq_ok_iff, mapError_eq_ok_iff] at h
  obtain ⟨a, ha, h⟩ := h
  obtain ⟨trees, htrees, hstands⟩ := exists_trees_of_wrap hs ha
  exact ⟨trees, htrees, nodup_page hstands, 
    analyzable_of_ofArena (walkAt_page hstands) (parts_page hstands) h⟩

lemma exists_ofPage (hs : ∀ s ∈ sections, s.Standing)
    (htrees : List.Forall₂ Source.IsTree sections trees) (hn : (pageRoot :: idsOf trees).Nodup)
    (h : Analyzable config (pageRecords trees) (trees.map (·.records))) :
    ∃ p, ofPage dialect unit config sections = .ok p := by
  obtain ⟨a, ha⟩ : ∃ a, wrap sections pageRoot pageType = .ok a := exists_wrap hs htrees hn
  obtain ⟨others, hothers, hstands⟩ := exists_trees_of_wrap hs ha
  obtain rfl := List.right_unique_forall₂' (fun _ _ _ ht hu => ht.unique hu) htrees hothers
  simp only [ofPage, fromSchema, bind_eq_ok_iff, mapError_eq_ok_iff]
  exact (exists_ofArena_page hstands h).imp fun _ hp => ⟨a, ha, hp⟩

end Pages

section Order

lemma exists_classNames_iff : (∃ classes, classNames config records = .ok classes) ↔
    (∀ r ∈ records, r.style = []) ∨ ∃ prefixName, config.stylePrefix = .ok prefixName := by
  have hplain : records.all (·.style.isEmpty) = true ↔ ∀ r ∈ records, r.style = [] := by
    simp
  rw [classNames]
  split_ifs with hall
  · exact iff_of_true ⟨[], rfl⟩ (.inl (hplain.1 hall))
  · rw [or_iff_right (fun h => hall (hplain.2 h))]
    simp only [map_eq_ok_iff]
    constructor
    · rintro ⟨_, q, hq, _⟩
      exact ⟨q, hq⟩
    · rintro ⟨q, hq⟩
      exact ⟨_, q, hq, rfl⟩

lemma exists_effects_iff : (∃ found, effects records = .ok found) ↔
    ∀ r ∈ records, ∃ found, effectsOf r = .ok found := by
  rw [← exists_mapM_iff]
  simp only [effects, bind_eq_ok_iff]
  exact ⟨fun ⟨_, parts, hparts, _⟩ => ⟨parts, hparts⟩, fun ⟨parts, hparts⟩ => ⟨_, parts, hparts, rfl⟩⟩

lemma Analyzable.perm {parts rest : List (List Record)} (h : Analyzable config records parts)
    (hrecords : records.Perm more) (himports : DistinctImports records)
    (hlisted : ∀ entry ∈ declared records "functions" "name" "body",
      isListable (Json.member entry "params")) : Analyzable config more rest where
  classes := by
    refine exists_classNames_iff.2 ((exists_classNames_iff.1 h.classes).imp_left fun hall r hr => ?_)
    exact hall r (hrecords.mem_iff.2 hr)
  effects := exists_effects_iff.2 fun r hr =>
    exists_effects_iff.1 h.effects r (hrecords.mem_iff.2 hr)
  functions := exists_functions fun entry hentry =>
    hlisted entry ((hrecords.flatMap_right _).mem_iff.2 hentry)
  imports := (exists_imports_iff (himports.perm hrecords)).2 fun entry hentry =>
    (exists_imports_iff himports).1 h.imports entry ((importEntries_perm hrecords).mem_iff.2 hentry)
  custom := h.custom

lemma recordsOf_perm (h : trees.Perm others) : (Tree.recordsOf trees).Perm (Tree.recordsOf others) := by
  have hflat (F : List Tree) : Tree.recordsOf F = F.flatMap (·.records) := by
    induction F with
    | nil => rfl
    | cons t rest ih => rw [Tree.recordsOf, ih, List.flatMap_cons]
  rw [hflat, hflat]
  exact h.flatMap_right _

lemma idsOf_perm (h : trees.Perm others) : (idsOf trees).Perm (idsOf others) := (recordsOf_perm h).map _

end Order

section Weight

lemma isCustom_of_type {r s : Record} (h : r.type = s.type) : r.isCustom = s.isCustom := by
  rw [Record.isCustom, Record.isCustom, h]

lemma usage_eq {r : Record} (hcustom : r.isCustom) :
    usage (trees.map (·.records)) r.type = sectionsWith trees r.type := by
  rw [usage, sectionsWith, List.countP_map]
  refine List.countP_congr fun t _ => ?_
  simp only [Function.comp_apply, List.any_eq_true, Bool.and_eq_true, beq_iff_eq]
  exact exists_congr fun s => and_congr_right fun _ =>
    and_iff_right_of_imp fun htype => (isCustom_of_type htype).trans hcustom

lemma sectionsWith_pos {r : Record} (h : r ∈ Tree.recordsOf trees) :
    1 ≤ sectionsWith trees r.type := by
  obtain ⟨t, ht, hr⟩ := mem_recordsOf.1 h
  rw [Tree.recordsOf, Tree.recordsOf, List.append_nil] at hr
  refine List.countP_pos_iff.2 ⟨t, ht, ?_⟩
  exact List.any_eq_true.2 ⟨r, hr, beq_self_eq_true _⟩

lemma share_eq {r : Record} (hcustom : r.isCustom) (h : r ∈ Tree.recordsOf trees) :
    share (trees.map (·.records)) r.type =
      (Binary64.ofQuotient false (sectionsWith trees r.type) trees.length).roundPlaces 4 := by
  have hpos := (sectionsWith_pos h).trans List.countP_le_length
  rw [share, usage_eq hcustom, List.length_map, Nat.max_eq_left hpos]

end Weight

/-- The imports of a page do not depend on the order of its sections, as long as no two entries import
one name and no two types of custom nodes have one component form. In another order the page can be
analysed too if all functions have parameters that can be listed. What no entry imports has a custom
type, and its weight is the share, to four places, of the sections in which a node has this type. -/
theorem section_order_irrelevant (hs : ∀ s ∈ sections, s.Standing)
    (htrees : List.Forall₂ Source.IsTree sections trees)
    (himports : DistinctImports (Tree.recordsOf trees))
    (hcomponents : DistinctComponents (Tree.recordsOf trees))
    (hp : ofPage dialect unit config sections = .ok p) :
    (∀ others : List Source, others.Perm sections →
      (∀ p', ofPage dialect unit config others = .ok p' → p'.imports.Perm p.imports) ∧
      ((∀ entry ∈ declared (Tree.recordsOf trees) "functions" "name" "body",
        isListable (Json.member entry "params")) → ∃ p', ofPage dialect unit config others = .ok p')) ∧
    ∀ i ∈ p.imports, i.name ∉ (importEntries (Tree.recordsOf trees)).filterMap bindingOf? →
      ∃ r ∈ Tree.recordsOf trees, r.isCustom ∧ i.name = componentForm r.type ∧
        i.source = "./" ++ componentForm r.type ∧
        1 ≤ sectionsWith trees r.type ∧ sectionsWith trees r.type ≤ sections.length ∧
        i.weight =
          (Binary64.ofQuotient false (sectionsWith trees r.type) sections.length).roundPlaces 4 := by
  obtain ⟨same, hsame, hn, hanalyzable, hfound⟩ := exists_trees_of_ofPage hs hp
  obtain rfl := List.right_unique_forall₂' (fun _ _ _ ht hu => ht.unique hu) htrees hsame
  have himports : DistinctImports (pageRecords trees) := himports
  refine ⟨fun others hothers => ?_, fun i hi hname => ?_⟩
  · have hstanding : ∀ s ∈ others, s.Standing := fun s h => hs s (hothers.mem_iff.1 h)
    obtain ⟨moved, hmoved, hperm⟩ := List.perm_comp_forall₂ hothers htrees
    have hrecords : (pageRecords trees).Perm (pageRecords moved) := (recordsOf_perm hperm.symm).cons _
    refine ⟨fun p' hp' => ?_, fun hlisted => ?_⟩
    · obtain ⟨same, hsame, -, -, hmore⟩ := exists_trees_of_ofPage hstanding hp'
      obtain rfl := List.right_unique_forall₂' (fun _ _ _ ht hu => ht.unique hu) hmoved hsame
      exact imports_perm hrecords (hperm.symm.map _) himports
        (distinctComponents_pageRecords hcomponents) hfound hmore
    · refine exists_ofPage hstanding hmoved ?_ (hanalyzable.perm hrecords himports hlisted)
      exact ((idsOf_perm hperm.symm).cons _).nodup_iff.1 hn
  · obtain ⟨entry, hentry, hbinds, hmade⟩ | ⟨r, hr, hcustom, -, rfl⟩ :=
      (mem_imports_iff himports (distinctComponents_pageRecords hcomponents) hfound).1 hi
    · obtain ⟨name, hbinding⟩ := Option.isSome_iff_exists.1 hbinds
      obtain ⟨weight, -, rfl⟩ := map_eq_ok_iff.1 hmade
      dsimp only at hname
      rw [display_of_given (bindingOf?_eq_some_iff.1 hbinding).named] at hname
      exact absurd (List.mem_filterMap.2 ⟨entry, hentry, hbinding⟩) hname
    · have hmem := (mem_pageRecords hcustom).1 hr
      refine ⟨r, hmem, hcustom, rfl, rfl, sectionsWith_pos hmem, ?_, ?_⟩
      · rw [htrees.length_eq]
        exact List.countP_le_length
      · rw [Import.ofRecord, share_eq hcustom hmem, htrees.length_eq]

def tiles : List Tree := [
  .node ⟨"a", "Card", [], [], .null⟩ [.node ⟨"b", "Card", [], [], .null⟩ []],
  .node ⟨"c", "div", [("imports", .obj [("Chart", .str "./chart")])], [], .null⟩ [],
  .node ⟨"d", "div", [("functions", .obj [("f", .str "")])], [], .null⟩
    [.node ⟨"e", "Card", [], [], .null⟩ []]]

theorem section_order_irrelevant_tiles :
    ∃ p p', ofPage (.react false) "  " {} (tiles.map .tree) = .ok p ∧
      ofPage (.react false) "  " {} (tiles.map .tree).reverse = .ok p' ∧ p'.imports.Perm p.imports ∧
      p.imports.map (·.name) = ["Chart", "Card"] ∧
      ∃ i ∈ p.imports, i.name = "Card" ∧ i.source = "./Card" ∧
        i.weight = (Binary64.ofQuotient false 2 3).roundPlaces 4 := by
  have hmade : ((ofPage (.react false) "  " {} (tiles.map .tree)).toOption.any fun p =>
      p.imports.map (·.name) == ["Chart", "Card"]) = true := by
    decide +kernel
  simp only [Option.any_eq_true, toOption_eq_some_iff, beq_iff_eq] at hmade
  obtain ⟨p, hp, hnames⟩ := hmade
  have hs : ∀ s ∈ tiles.map Source.tree, s.Standing := by
    intro s hs a ha
    obtain ⟨t, -, rfl⟩ := List.mem_map.1 hs
    cases ha
  have htrees : List.Forall₂ Source.IsTree (tiles.map .tree) tiles := by
    rw [List.forall₂_map_left_iff, List.forall₂_same]
    intro t ht
    have hstored : ∀ t ∈ tiles, (Arena.ofSource (.tree t)).toOption.isSome = true := by decide +kernel
    obtain ⟨a, ha⟩ := Option.isSome_iff_exists.1 (hstored t ht)
    exact isTree_of_ofSource (toOption_eq_some_iff.1 ha)
  obtain ⟨horder, hweights⟩ :=
    section_order_irrelevant hs htrees (by decide +kernel) (by decide +kernel) hp
  obtain ⟨hsame, hmakes⟩ := horder _ (List.reverse_perm _)
  obtain ⟨p', hp'⟩ := hmakes (by decide +kernel)
  refine ⟨p, p', hp, hp', hsame p' hp', hnames, ?_⟩
  obtain ⟨i, hi, hname⟩ := List.mem_map.1 (hnames ▸ by decide : "Card" ∈ p.imports.map (·.name))
  obtain ⟨r, hr, -, hform, hsource, -, -, hweight⟩ := hweights i hi (hname ▸ by decide +kernel)
  have hcount : ∀ r ∈ Tree.recordsOf tiles, componentForm r.type = "Card" →
      sectionsWith tiles r.type = 2 := by
    decide +kernel
  rw [hname] at hform
  rw [hcount r hr hform.symm] at hweight
  exact ⟨i, hi, hname, by rw [hsource, ← hform]; decide, hweight⟩

def toolbar : Tree :=
  .node ⟨"a", "Card", [("functions", .arr [.obj [("name", .str "f")]])], [], .null⟩ []

def sidebar : Tree :=
  .node ⟨"b", "div", [("functions", .arr [.obj [("name", .str "f"), ("params", .int 5)]])], [], .null⟩ []

/-- The parameters of the second function are not looked at, and so the order of the sections decides
whether there are imports at all. -/
theorem section_order_matters :
    DistinctImports (Tree.recordsOf [toolbar, sidebar]) ∧
      DistinctComponents (Tree.recordsOf [toolbar, sidebar]) ∧
      (∃ p, ofPage (.react false) "  " {} [.tree toolbar, .tree sidebar] = .ok p ∧
        p.imports.map (·.name) = ["Card"]) ∧
      ∀ p, ofPage (.react false) "  " {} [.tree sidebar, .tree toolbar] ≠ .ok p := by
  have hmade : ((ofPage (.react false) "  " {} [.tree toolbar, .tree sidebar]).toOption.any fun p =>
      p.imports.map (·.name) == ["Card"]) = true := by
    decide +kernel
  simp only [Option.any_eq_true, toOption_eq_some_iff, beq_iff_eq] at hmade
  refine ⟨by decide +kernel, by decide +kernel, hmade, fun p hp => ?_⟩
  have hnone : (ofPage (.react false) "  " {} [.tree sidebar, .tree toolbar]).toOption.isNone = true := by
    decide +kernel
  rw [hp] at hnone
  cases hnone

end ViewWriter.Analysis
