import ViewWriter.Generator.Basic
import ViewWriter.Proofs.Analysis.Declarations
import ViewWriter.Proofs.Name.Characters
import ViewWriter.Proofs.Schema.Storage

/-! Subjects and the trees that are written for them. The parts of a view are those of the records of
its tree. If the default name is an identifier, the name of a view is made of the characters of names, and
its files have such names with extensions. -/

namespace ViewWriter

open ViewWriter.Text ViewWriter.Schema ViewWriter.Analysis

namespace Subject

/-- The arenas of a subject stand for forests. -/
def Standing : Subject → Prop
  | component source => source.Standing
  | page sections => ∀ source ∈ sections, source.Standing

/-- The tree whose markup is written for a subject. A page has a root above its sections. -/
inductive Shows : Subject → Tree → Prop
  | component {source : Source} {a : Arena} {root : String} {others : List String} {t : Tree} :
      Arena.ofSource source = .ok a → a.roots = root :: others → a.toTree root = .ok t →
      Shows (component source) t
  | page {sections : List Source} {a : Arena} {t : Tree} :
      Arena.wrap sections = .ok a → a.toTree Arena.pageRoot = .ok t → Shows (page sections) t

lemma Shows.unique {s : Subject} {t u : Tree} (ht : s.Shows t) (hu : s.Shows u) : t = u := by
  cases ht with
  | component ha hroots ht =>
    cases hu with
    | component hb hothers hu =>
      cases ha.symm.trans hb
      cases hroots.symm.trans hothers
      exact Except.ok.inj (ht.symm.trans hu)
  | page ha ht =>
    cases hu with
    | page hb hu =>
      cases ha.symm.trans hb
      exact Except.ok.inj (ht.symm.trans hu)

lemma shows_tree {t : Tree} (hid : "" ∉ idsOf [t]) (hn : (idsOf [t]).Nodup) :
    Shows (.component (.tree t)) t := by
  obtain ⟨a, ha, hholds⟩ := Arena.Holds.empty.exists_foldlM_addRoot hid hn
  have hsource : Arena.ofSources [.tree t] = .ok a :=
    (Arena.ofSources_eq (.cons (b := t) rfl .nil)).trans ha
  have htrees := hholds.stands.mapM_toTree
  rw [hholds.stands.roots] at htrees
  obtain ⟨u, hu, hrest⟩ := bind_eq_ok_iff.1 ((List.mapM_cons ..).symm.trans htrees)
  cases hrest
  exact .component hsource hholds.stands.roots hu

lemma Shows.of_toTree {source : Source} {t u : Tree} (h : Shows (.component source) t)
    (hu : source.toTree = .ok u) : t = u := by
  cases h with
  | @component _ a root others _ ha hroots ht =>
    have hsources : Arena.ofSources [source] = .ok a := by
      cases source with
      | document v => exact ha
      | tree u => exact ha
      | arena b => cases hu
    have hadded : [u].foldlM Arena.addRoot Arena.empty = .ok a := by
      rw [← Arena.ofSources_eq (.cons hu .nil), hsources]
    rw [List.foldlM_cons, bind_eq_ok_iff] at hadded
    obtain ⟨b, hb, hadded⟩ := hadded
    cases hadded
    have htrees := (Arena.Stands.empty.addRoot hb).mapM_toTree
    rw [hroots, List.mapM_cons, ht, bind_eq_ok_iff] at htrees
    obtain ⟨t', ht', htrees⟩ := htrees
    obtain ⟨rest, -, htrees⟩ := bind_eq_ok_iff.1 htrees
    cases ht'
    exact (List.cons.inj (Except.ok.inj htrees)).1

end Subject

namespace Analysis

/-- What the analysis finds in a tree. -/
structure PartsOf (dialect : Markup.Dialect) (unit : String) (config : Config)
    (classes : Table String) (t : Tree) (p : Parts) : Prop where
  name : ∃ props, p.name = componentName config props
  classNames : classNames config t.records = .ok classes
  styles : p.styles = styleRules config.cssUnit.display classes t.records
  markup : p.markup = dialect.render unit classes t
  state : p.state = stateVariables t.records
  props : p.props = properties t.records
  functions : functions t.records = .ok p.functions
  effects : effects t.records = .ok p.effects
  imports : ∃ sections, imports t.records sections = .ok p.imports
  custom : config.custom.table = .ok p.custom
  distinct : (t.records.map (·.id)).Nodup

lemma PartsOf.binds {dialect : Markup.Dialect} {unit : String} {config : Config}
    {classes : Table String} {t : Tree} {p : Parts} (h : PartsOf dialect unit config classes t p)
    (name : String) : (∃ i ∈ p.imports, i.name = name) ↔ Binds t.records name := by
  obtain ⟨sections, himports⟩ := h.imports
  exact exists_import himports

end Analysis

section Parts

variable {p : Parts} {dialect : Markup.Dialect} {unit : String} {config : Config} {a : Arena}
  {F : List Tree} {root : String}

lemma ofArena_parts {sections : List String} (ha : a.Stands F)
    (h : ofArena dialect unit config a root sections = .ok p) :
    ∃ t classes, a.toTree root = .ok t ∧ PartsOf dialect unit config classes t p := by
  simp only [ofArena, fromSchema, fromFault, bind_eq_ok_iff] at h
  obtain ⟨records, hrecords, record, -, classes, hclasses, effects, heffects, functions, hfunctions,
    sections, -, imports, himports, tree, htree, custom, hcustom, h⟩ := h
  cases h
  obtain ⟨t, ht, rfl, hdistinct⟩ := ha.exists_toTree (mapError_eq_ok_iff.1 hrecords)
  cases ht.symm.trans (mapError_eq_ok_iff.1 htree)
  exact ⟨tree, classes, ht,
    { name := ⟨record.props, rfl⟩
      classNames := mapError_eq_ok_iff.1 hclasses
      styles := rfl
      markup := rfl
      state := rfl
      props := rfl
      functions := mapError_eq_ok_iff.1 hfunctions
      effects := mapError_eq_ok_iff.1 heffects
      imports := ⟨sections, mapError_eq_ok_iff.1 himports⟩
      custom := mapError_eq_ok_iff.1 hcustom
      distinct := hdistinct }⟩

lemma Generator.exists_indentedParts {g : Generator} {s : Subject} {o : Options} (hs : s.Standing)
    (h : g.parts s o = .ok p) :
    ∃ t d unit classes, s.Shows t ∧ g.target.dialect g.config o = .ok d ∧
      g.config.indentUnit = .ok unit ∧ PartsOf d unit g.config classes t p := by
  simp only [Generator.parts, bind_eq_ok_iff] at h
  obtain ⟨d, hd, unit, hunit, h⟩ := h
  have hdialect := mapError_eq_ok_iff.1 hd
  have hmargin := mapError_eq_ok_iff.1 hunit
  cases s with
  | component source =>
    have hp : ofComponent d unit g.config source = .ok p := mapError_eq_ok_iff.1 h
    simp only [ofComponent, fromSchema, bind_eq_ok_iff] at hp
    obtain ⟨a, ha, hp⟩ := hp
    have harena := mapError_eq_ok_iff.1 ha
    obtain ⟨F, hF⟩ := Arena.stands_ofSource hs harena
    split at hp
    · cases hp
    · rename_i root others hroots
      obtain ⟨t, classes, ht, hparts⟩ := ofArena_parts hF hp
      exact ⟨t, d, unit, classes, .component harena hroots ht, hdialect, hmargin, hparts⟩
  | page sections =>
    have hp : ofPage d unit g.config sections = .ok p := mapError_eq_ok_iff.1 h
    simp only [ofPage, fromSchema, bind_eq_ok_iff] at hp
    obtain ⟨a, ha, hp⟩ := hp
    have harena := mapError_eq_ok_iff.1 ha
    obtain ⟨F, hF⟩ := Arena.stands_wrap hs harena
    obtain ⟨t, classes, ht, hparts⟩ := ofArena_parts hF hp
    exact ⟨t, d, unit, classes, .page harena ht, hdialect, hmargin, hparts⟩

lemma Generator.exists_partsOf {g : Generator} {s : Subject} {o : Options} (hs : s.Standing)
    (h : g.parts s o = .ok p) :
    ∃ t d unit classes, s.Shows t ∧ g.target.dialect g.config o = .ok d ∧
      PartsOf d unit g.config classes t p := by
  obtain ⟨t, d, unit, classes, ht, hd, -, hparts⟩ := exists_indentedParts hs h
  exact ⟨t, d, unit, classes, ht, hd, hparts⟩

lemma Generator.partsOf_shown {g : Generator} {s : Subject} {o : Options} (hs : s.Standing)
    {t : Tree} (ht : s.Shows t) (h : g.parts s o = .ok p) :
    ∃ d unit classes, g.target.dialect g.config o = .ok d ∧ PartsOf d unit g.config classes t p := by
  obtain ⟨u, d, unit, classes, hu, hd, hparts⟩ := exists_partsOf hs h
  obtain rfl := ht.unique hu
  exact ⟨d, unit, classes, hd, hparts⟩

lemma Generator.parts_tree {g : Generator} {s : Subject} {o : Options} (hs : s.Standing)
    (h : g.parts s o = .ok p) :
    ∃ t d unit classes, s.Shows t ∧ g.target.dialect g.config o = .ok d ∧
      p.markup = d.render unit classes t ∧
      ∀ name, (∃ i ∈ p.imports, i.name = name) ↔ Binds t.records name := by
  obtain ⟨t, d, unit, classes, ht, hd, hparts⟩ := exists_partsOf hs h
  exact ⟨t, d, unit, classes, ht, hd, hparts.markup, hparts.binds⟩

end Parts

namespace FileNames

/-- From its end, a file name has its extension up to the last dot. -/
lemma split_at_extension {stem extension : String} (h : '.' ∉ extension.toList) :
    (stem ++ "." ++ extension).toList.reverse.takeWhile (· != '.') = extension.toList.reverse ∧
      (stem ++ "." ++ extension).toList.reverse.dropWhile (· != '.') =
        '.' :: stem.toList.reverse := by
  have hreverse : (stem ++ "." ++ extension).toList.reverse =
      extension.toList.reverse ++ '.' :: stem.toList.reverse := by simp
  have hkept : ∀ c ∈ extension.toList.reverse, (c != '.') = true := fun c hc =>
    bne_iff_ne.2 fun heq => h (heq ▸ List.mem_reverse.1 hc)
  rw [hreverse, List.takeWhile_append_of_pos hkept, List.dropWhile_append_of_pos hkept,
    List.takeWhile_cons_of_neg (by simp), List.dropWhile_cons_of_neg (by simp), List.append_nil]
  exact ⟨rfl, rfl⟩

lemma withoutExtension_append {stem extension : String} (h : '.' ∉ extension.toList) :
    withoutExtension (stem ++ "." ++ extension) = stem := by
  rw [withoutExtension, (split_at_extension h).2]
  simp

/-- No character of a text stands outside file names. -/
def IsFileText (s : String) : Prop := ∀ c ∈ s.toList, isStop c = false

instance (s : String) : Decidable (IsFileText s) := List.decidableBAll _ _

lemma IsFileText.append {s t : String} (hs : IsFileText s) (ht : IsFileText t) :
    IsFileText (s ++ t) := by
  rw [IsFileText, String.toList_append, List.forall_mem_append]
  exact ⟨hs, ht⟩

lemma IsFileText.oneLine {s : String} (h : IsFileText s) : OneLine s :=
  fun hm => absurd (h _ hm) (by decide)

lemma isFileText_of_named {s : String} (h : Name.IsNamed s) : IsFileText s :=
  fun c hc => Name.isStop_of_nameChar (h c hc)

/-- The main file has an extension after its last point, and the style file is a stylesheet. -/
structure Formed (names : FileNames) (f : Framework) (stem extension base : String) : Prop where
  main : names.main = stem ++ "." ++ extension
  point_notMem : '.' ∉ extension.toList
  stem_text : IsFileText stem
  extension_text : IsFileText extension
  styles : names.styles = base ++ ".css"
  base_text : IsFileText base
  point_mem : f = .angular → '.' ∈ base.toList

lemma exists_formed {name : String} (h : Name.IsNamed name) (f : Framework) (o : Options) :
    ∃ stem extension base, Formed ((Target.ofFramework f).fileNames name o) f stem extension base := by
  have hname := isFileText_of_named h
  have hdotted {stem extension dotted : String} (hdotted : dotted = "." ++ extension) :
      stem ++ dotted = stem ++ "." ++ extension := by
    rw [hdotted, String.append_assoc]
  have hmodule (isModule : Bool) : ∃ base, stylesheet name isModule = base ++ ".css" ∧
      IsFileText base := by
    cases isModule with
    | false => exact ⟨name, rfl, hname⟩
    | true =>
      refine ⟨name ++ ".module", ?_, hname.append (by decide)⟩
      rw [String.append_assoc]
      rfl
  cases f with
  | react =>
    obtain ⟨base, hstyles, hbase⟩ := hmodule o.isModule.isGiven
    have hmain : ∃ extension, (if o.typescript.isGiven then ".tsx" else ".jsx") = "." ++ extension ∧
        '.' ∉ extension.toList ∧ IsFileText extension := by
      split_ifs
      · exact ⟨"tsx", rfl, by decide, by decide⟩
      · exact ⟨"jsx", rfl, by decide, by decide⟩
    obtain ⟨extension, hmain, hpoint, hextension⟩ := hmain
    exact ⟨name, extension, base, hdotted hmain, hpoint, hname, hextension, hstyles, hbase,
      fun h => by cases h⟩
  | vue =>
    obtain ⟨base, hstyles, hbase⟩ := hmodule o.isModule.isGiven
    exact ⟨name, "vue", base, hdotted rfl, by decide, hname, by decide, hstyles, hbase,
      fun h => by cases h⟩
  | angular =>
    have hkebab := (isFileText_of_named (Name.isNamed_kebab name)).append
      (by decide : IsFileText ".component")
    exact ⟨Name.kebab name ++ ".component", "ts", Name.kebab name ++ ".component",
      hdotted rfl, by decide, hkebab, by decide, rfl, hkebab, fun _ => by simp⟩
  | html =>
    exact ⟨name, "html", name, hdotted rfl, by decide, hname, by decide, rfl, hname,
      fun h => by cases h⟩

end FileNames

namespace Generator

variable {g : Generator} {s : Subject} {o : Options} {v : View} {default : String}

lemma exists_named (hdefault : g.config.defaultName = .str default)
    (hnamed : Name.IsNamed default) (given : Json) :
    ∃ name, componentNamed g.config given = .str name ∧ Name.IsNamed name := by
  rw [componentNamed]
  split
  · exact ⟨default, hdefault, hnamed⟩
  · exact ⟨_, rfl, Name.isNamed_component (by decide) _⟩

lemma exists_viewName (hs : s.Standing) (hview : g.view s o = .ok v)
    (hdefault : g.config.defaultName = .str default) (hnamed : Name.IsNamed default) :
    ∃ name, v.name = .str name ∧ Name.IsNamed name ∧ v.files = g.target.fileNames name o := by
  obtain ⟨p, hp, rfl⟩ := map_eq_ok_iff.1 hview
  obtain ⟨t, d, unit, classes, -, -, hparts⟩ := exists_partsOf hs hp
  have hname : ∃ name, g.subjectName p s.isPage o = .str name ∧ Name.IsNamed name := by
    rw [subjectName]
    split_ifs
    · exact exists_named hdefault hnamed _
    · exact exists_named hdefault hnamed _
    · obtain ⟨props, hprops⟩ := hparts.name
      rw [hprops, Analysis.componentName]
      split_ifs
      · exact exists_named hdefault hnamed _
      · exact ⟨default, hdefault, hnamed⟩
  obtain ⟨name, hname, hchars⟩ := hname
  refine ⟨name, hname, hchars, ?_⟩
  rw [viewOf]
  dsimp only
  rw [hname]
  rfl

end Generator

end ViewWriter
