import ViewWriter.Config.Layers
import ViewWriter.Proofs.Table

/-! Settings in layers. Of what a setting is called in a layer, its name at the top counts before its name
among the custom settings, also where this one stands in a higher layer. -/

namespace ViewWriter.Config

/-- Settings of one layer. Each has one value, and the custom settings are an object if there are any. -/
structure IsLayer (t : Table Json) : Prop where
  distinct : t.keys.Nodup
  custom : ∀ v, t.get? "custom" = some v → ∃ fields, v = .obj fields ∧ (Table.keys fields).Nodup

instance : DecidablePred IsLayer := fun t =>
  decidable_of_iff (t.keys.Nodup ∧
    ∀ v ∈ t.get? "custom", ∃ fields ∈ v.fields?, (Table.keys fields).Nodup) <| by
      refine ⟨fun ⟨hdistinct, h⟩ => ⟨hdistinct, fun v hv => ?_⟩, fun h => ⟨h.distinct, fun v hv => ?_⟩⟩
      · obtain ⟨fields, hfields, hnodup⟩ := h v hv
        cases v <;> cases hfields
        exact ⟨fields, rfl, hnodup⟩
      · obtain ⟨fields, rfl, hnodup⟩ := h.custom v hv
        exact ⟨fields, rfl, hnodup⟩

def customFields (t : Table Json) : Table Json := ((t.get? "custom").bind Json.fields?).getD []

variable {t base upper : Table Json} {key : String} {value : Json} {c : Config}

section Fields

lemma customFields_of_get? {fields : Table Json} (h : t.get? "custom" = some (.obj fields)) :
    customFields t = fields := by
  rw [customFields, h]
  rfl

lemma customFields_of_none (h : t.get? "custom" = none) : customFields t = [] := by
  rw [customFields, h]
  rfl

lemma customFields_cons_custom (value : Json) (t : Table Json) :
    customFields (("custom", value) :: t) = value.fields?.getD [] := by
  rw [customFields, Table.get?_cons, if_pos rfl]
  rfl

lemma customFields_cons_of_ne (h : key ≠ "custom") (value : Json) (t : Table Json) :
    customFields ((key, value) :: t) = customFields t := by
  rw [customFields, Table.get?_cons, if_neg (Ne.symm h), ← customFields]

lemma IsLayer.getD_custom (h : IsLayer t) :
    (t.get? "custom").getD (.obj []) = .obj (customFields t) := by
  cases hget : t.get? "custom" with
  | none =>
    rw [customFields_of_none hget]
    rfl
  | some v =>
    obtain ⟨fields, rfl, -⟩ := h.custom v hget
    rw [customFields_of_get? hget]
    rfl

lemma IsLayer.nodup_customFields (h : IsLayer t) : (customFields t).keys.Nodup := by
  cases hget : t.get? "custom" with
  | none =>
    rw [customFields_of_none hget]
    exact List.nodup_nil
  | some v =>
    obtain ⟨fields, rfl, hnodup⟩ := h.custom v hget
    rwa [customFields_of_get? hget]

lemma isLayer_cons (h : IsLayer ((key, value) :: t)) : IsLayer [(key, value)] ∧ IsLayer t := by
  obtain ⟨hkey, hdistinct⟩ := Table.nodup_keys_cons h.distinct
  refine ⟨⟨List.nodup_singleton key, fun v hv => h.custom v ?_⟩, hdistinct, fun v hv => h.custom v ?_⟩
  · rw [Table.get?_cons] at hv ⊢
    split_ifs at hv ⊢ with hcustom
    · exact hv
    · cases hv
  · have hne : "custom" ≠ key := by
      rintro rfl
      exact hkey (Table.mem_keys_of_mem (Table.mem_of_get? hv))
    rwa [Table.get?_cons, if_neg hne]

lemma isLayer_frameworkDefaults (framework : String) : IsLayer (frameworkDefaults framework) := by
  unfold frameworkDefaults
  split <;> decide

lemma frameworkDefaults_of_unknown (framework : String) (h : key ∉ settingNames) :
    (frameworkDefaults framework).get? key = none := by
  have hkeys : ∀ k ∈ (frameworkDefaults framework).keys, k ∈ settingNames := by
    unfold frameworkDefaults
    split <;> decide
  exact Table.get?_of_notMem fun hmem => h (hkeys key hmem)

end Fields

section Overriding

/-- A setting other than the custom ones has the value that was written last. -/
lemma get?_override (h : override base key value = .ok t) {k : String} (hk : k ≠ "custom") :
    t.get? k = (Table.get? [(key, value)] k).or (base.get? k) := by
  have hset : ∀ v : Json, k ≠ key ∨ v = value →
      (base.set key v).get? k = (Table.get? [(key, value)] k).or (base.get? k) := by
    intro v hv
    rw [Table.get?_set, Table.get?_cons]
    split_ifs with hkey
    · rw [hv.resolve_left (not_not.2 hkey)]
      rfl
    · rfl
  rw [override.eq_def] at h
  split at h
  · have hkey : key = "custom" := beq_iff_eq.1 ‹_›
    subst hkey
    split at h
    · cases h
      exact hset _ (.inl hk)
    · cases h
  · cases h
    exact hset _ (.inr rfl)

lemma get?_overrideAll (h : overrideAll base upper = .ok t) (hupper : upper.keys.Nodup)
    {k : String} (hk : k ≠ "custom") : t.get? k = (upper.get? k).or (base.get? k) := by
  induction upper generalizing base with
  | nil =>
    cases h
    rfl
  | cons e upper ih =>
    obtain ⟨key, value⟩ := e
    obtain ⟨hkey, hdistinct⟩ := Table.nodup_keys_cons hupper
    rw [overrideAll, List.foldlM_cons, bind_eq_ok_iff] at h
    obtain ⟨middle, hmiddle, hrest⟩ := h
    rw [ih hrest hdistinct, get?_override hmiddle hk, Table.get?_cons, Table.get?_cons]
    split_ifs with heq
    · rw [heq, Table.get?_of_notMem hkey]
      rfl
    · rfl

lemma exists_override (hbase : IsLayer base) (h : IsLayer [(key, value)]) : ∃ t,
    override base key value = .ok t ∧ IsLayer t ∧
      customFields t = (customFields base).merge (customFields [(key, value)]) := by
  by_cases hkey : key = "custom"
  · subst hkey
    obtain ⟨fields, rfl, hfields⟩ := h.custom value (by rw [Table.get?_cons, if_pos rfl])
    refine ⟨base.set "custom" (.obj ((customFields base).merge fields)), ?_, ⟨?_, fun v hv => ?_⟩, ?_⟩
    · rw [override.eq_def]
      simp only [beq_self_eq_true, hbase.getD_custom]
    · exact Table.nodup_keys_set hbase.distinct _ _
    · rw [Table.get?_set, if_pos rfl, Option.some.injEq] at hv
      exact ⟨_, hv.symm, Table.nodup_keys_merge hbase.nodup_customFields fields⟩
    · rw [customFields_of_get? (t := base.set _ _) (by rw [Table.get?_set, if_pos rfl]),
        customFields_cons_custom]
      rfl
  · have hcustom : (base.set key value).get? "custom" = base.get? "custom" := by
      rw [Table.get?_set, if_neg (Ne.symm hkey)]
    refine ⟨base.set key value, ?_, ⟨Table.nodup_keys_set hbase.distinct _ _, ?_⟩, ?_⟩
    · rw [override]
      simp [hkey]
    · exact fun v hv => hbase.custom v (hcustom ▸ hv)
    · rw [customFields, hcustom, ← customFields, customFields_cons_of_ne hkey]
      rfl

lemma customFields_cons (h : key ∉ upper.keys) (lower : Table Json) :
    (lower.merge (customFields [(key, value)])).merge (customFields upper) =
      lower.merge (customFields ((key, value) :: upper)) := by
  by_cases hcustom : key = "custom"
  · subst hcustom
    rw [customFields_of_none (Table.get?_of_notMem h), customFields_cons_custom, customFields_cons_custom]
    rfl
  · rw [customFields_cons_of_ne hcustom, customFields_cons_of_ne hcustom]
    rfl

lemma exists_overrideAll (hbase : IsLayer base) (h : IsLayer upper) : ∃ t,
    overrideAll base upper = .ok t ∧ IsLayer t ∧
      customFields t = (customFields base).merge (customFields upper) := by
  induction upper generalizing base with
  | nil => exact ⟨base, rfl, hbase, rfl⟩
  | cons e upper ih =>
    obtain ⟨key, value⟩ := e
    obtain ⟨hsingle, hupper⟩ := isLayer_cons h
    obtain ⟨middle, hmiddle, hlayer, hfirst⟩ := exists_override hbase hsingle
    obtain ⟨t, ht, htop, hrest⟩ := ih hlayer hupper
    refine ⟨t, ?_, htop, ?_⟩
    · rw [overrideAll, List.foldlM_cons, hmiddle]
      exact ht
    · rw [hrest, hfirst, customFields_cons (Table.nodup_keys_cons h.distinct).1]

end Overriding

/-- The settings at the top of a layer that are custom settings. -/
def unknownFields (t : Table Json) : Table Json := t.filter fun e => !settingNames.contains e.1

lemma get?_unknownFields (h : key ∉ settingNames) : (unknownFields t).get? key = t.get? key := by
  rw [unknownFields, Table.get?_filter (fun k => !settingNames.contains k), if_pos (by simpa using h)]

lemma IsLayer.nodup_unknownFields (h : IsLayer t) : (unknownFields t).keys.Nodup :=
  h.distinct.sublist (List.filter_sublist.map _)

lemma get?_ofFields (h : ofFields t = .ok c) (hkey : key ∈ settingNames) (hne : key ≠ "custom") :
    c.toFields.get? key = (t.get? key).or (({} : Config).toFields.get? key) := by
  simp only [settingNames, List.mem_cons, List.not_mem_nil, or_false] at hkey
  rw [ofFields] at h
  split_ifs at h
  case' neg => obtain ⟨known, -, h⟩ := bind_eq_ok_iff.1 h
  all_goals
    cases h
    rcases hkey with rfl | rfl | rfl | rfl | rfl | rfl | rfl | rfl | rfl
    case inr.inr.inr.inr.inr.inr.inr.inr => exact absurd rfl hne
    all_goals exact Option.or_some.symm

/-- Settings that are not known are custom settings, over those that were custom before. -/
lemma exists_ofFields (h : IsLayer t) : ∃ c, ofFields t = .ok c ∧
    c.custom = .obj ((customFields t).merge (unknownFields t)) := by
  simp only [ofFields, h.getD_custom]
  rw [← unknownFields]
  split_ifs with hempty
  · refine ⟨_, rfl, ?_⟩
    rw [List.isEmpty_iff.1 hempty]
    rfl
  · exact ⟨_, rfl, rfl⟩

section Precedence

/-- The value of the highest layer that has the setting at its top. The layers go from the highest down. -/
def atTop (layers : List (Table Json)) (key : String) : Option Json := layers.findSome? (·.get? key)

/-- The value of the highest layer that has the setting among its custom settings. -/
def inCustom (layers : List (Table Json)) (key : String) : Option Json :=
  layers.findSome? fun layer => (customFields layer).get? key

/-- The value of a custom setting in one layer, where its name at the top counts first. -/
def named (layer : Table Json) (key : String) : Option Json :=
  (layer.get? key).or ((customFields layer).get? key)

/-- The value of the highest layer that has the setting in either place. -/
def effective (layers : List (Table Json)) (key : String) : Option Json :=
  layers.findSome? (named · key)

/-- The highest layer that has the setting has it among its custom settings only, and a layer below it
has another value for it at the top. -/
def Overtaken (layers : List (Table Json)) (key : String) : Prop :=
  ∃ above layer below v w, layers = above ++ layer :: below ∧ (∀ l ∈ above, named l key = none) ∧
    layer.get? key = none ∧ (customFields layer).get? key = some v ∧ atTop below key = some w ∧ v ≠ w

variable {layers : List (Table Json)} {layer : Table Json} {v : Json}

lemma atTop_cons (layer : Table Json) (layers : List (Table Json)) (key : String) :
    atTop (layer :: layers) key = (layer.get? key).or (atTop layers key) := by
  rw [atTop, List.findSome?_cons, atTop]
  cases layer.get? key <;> rfl

lemma inCustom_cons (layer : Table Json) (layers : List (Table Json)) (key : String) :
    inCustom (layer :: layers) key = ((customFields layer).get? key).or (inCustom layers key) := by
  rw [inCustom, List.findSome?_cons, inCustom]
  cases (customFields layer).get? key <;> rfl

lemma effective_cons (layer : Table Json) (layers : List (Table Json)) (key : String) :
    effective (layer :: layers) key = (named layer key).or (effective layers key) := by
  rw [effective, List.findSome?_cons, effective]
  cases named layer key <;> rfl

lemma overtaken_of_unnamed (h : named layer key = none) :
    Overtaken (layer :: layers) key ↔ Overtaken layers key := by
  constructor
  · rintro ⟨above, found, below, v, w, hsplit, habove, hnone, hv, hw, hne⟩
    cases above with
    | nil =>
      obtain ⟨rfl, rfl⟩ := List.cons.inj hsplit
      rw [named, hnone, hv] at h
      cases h
    | cons _ above =>
      obtain ⟨-, rfl⟩ := List.cons.inj hsplit
      exact ⟨above, found, below, v, w, rfl, fun l hl => habove l (List.mem_cons_of_mem _ hl), hnone, hv,
        hw, hne⟩
  · rintro ⟨above, found, below, v, w, rfl, habove, hrest⟩
    exact ⟨layer :: above, found, below, v, w, rfl, List.forall_mem_cons.2 ⟨h, habove⟩, hrest⟩

lemma overtaken_of_named (h : named layer key = some v) : Overtaken (layer :: layers) key ↔
    layer.get? key = none ∧ ∃ w, atTop layers key = some w ∧ v ≠ w := by
  constructor
  · rintro ⟨above, found, below, u, w, hsplit, habove, hnone, hu, hw, hne⟩
    cases above with
    | nil =>
      obtain ⟨rfl, rfl⟩ := List.cons.inj hsplit
      rw [named, hnone, hu] at h
      cases h
      exact ⟨hnone, w, hw, hne⟩
    | cons _ above =>
      obtain ⟨rfl, -⟩ := List.cons.inj hsplit
      rw [habove _ List.mem_cons_self] at h
      cases h
  · rintro ⟨hnone, w, hw, hne⟩
    rw [named, hnone] at h
    exact ⟨[], layer, layers, v, w, rfl, by simp, hnone, h, hw, hne⟩

/-- A name at the top of any layer before those among custom settings gives the value of the highest
layer unless this is overtaken. -/
lemma atTop_or_inCustom_eq_iff (layers : List (Table Json)) (key : String) :
    (atTop layers key).or (inCustom layers key) = effective layers key ↔ ¬ Overtaken layers key := by
  induction layers with
  | nil =>
    refine iff_of_true rfl ?_
    rintro ⟨above, layer, below, v, w, hsplit, -⟩
    simp at hsplit
  | cons layer layers ih =>
    rw [atTop_cons, inCustom_cons, effective_cons]
    cases htop : layer.get? key with
    | some v =>
      have hnamed : named layer key = some v := by rw [named, htop]; rfl
      rw [overtaken_of_named hnamed, hnamed, htop]
      simp
    | none =>
      cases hcustom : (customFields layer).get? key with
      | none =>
        have hnamed : named layer key = none := by rw [named, htop, hcustom]; rfl
        rw [overtaken_of_unnamed hnamed, hnamed, ← ih]
        rfl
      | some v =>
        have hnamed : named layer key = some v := by rw [named, htop, hcustom]; rfl
        rw [overtaken_of_named hnamed, hnamed, htop]
        cases htops : atTop layers key with
        | none => simp
        | some w => simp [eq_comm]

end Precedence

def fileSettings (folder : Folder) (path : String) : Except LoadConfigError (Table Json) :=
  if path == "" then .ok [] else readFile folder path

section Loading

variable {folder : Folder} {path framework : String} {file : Table Json} {overrides : Json}

lemma layered_eq_ok_iff : layered framework file (.obj upper) = .ok c ↔
    ∃ base, overrideAll (frameworkDefaults framework) file = .ok base ∧
      ∃ t, overrideAll base upper = .ok t ∧ ofFields t = .ok c := by
  rw [layered, bind_eq_ok_iff]
  refine exists_congr fun base => and_congr_right fun _ => ?_
  cases upper with
  | nil =>
    constructor
    · exact fun h => ⟨base, rfl, h⟩
    · rintro ⟨t, ht, h⟩
      cases ht
      exact h
  | cons e upper => exact bind_eq_ok_iff

lemma load_eq_ok_iff (hfile : fileSettings folder path = .ok file) :
    load folder framework overrides path = .ok c ↔ layered framework file overrides = .ok c := by
  rw [fileSettings] at hfile
  rw [load]
  split_ifs at hfile ⊢
  · cases hfile
    exact mapError_eq_ok_iff
  · rw [hfile]
    exact mapError_eq_ok_iff

end Loading

/-- The settings of a framework with a file and overrides. Each setting other than the custom ones has the
value of the highest layer that has it, or else its default. Layers can be loaded. A custom setting has
the value that the highest layer with its name at the top gives it, and only if there is none that of
the highest layer with its name among the custom settings. This is the value of the highest layer that
has the setting in either place if and only if that value is not overtaken. -/
theorem layers_keep_precedence {file overrides : Table Json} (hfile : file.keys.Nodup)
    (hoverrides : overrides.keys.Nodup) {folder : Folder} {path : String}
    (hread : fileSettings folder path = .ok file) (framework : String) :
    (∀ c, load folder framework (.obj overrides) path = .ok c →
      ∀ key ∈ settingNames, key ≠ "custom" → c.toFields.get? key =
        (atTop [overrides, file, frameworkDefaults framework] key).or
          (({} : Config).toFields.get? key)) ∧
    (IsLayer file → IsLayer overrides → ∃ c fields,
      load folder framework (.obj overrides) path = .ok c ∧ c.custom = .obj fields ∧
        ∀ key, key ∉ settingNames →
          Table.get? fields key = (atTop [overrides, file, frameworkDefaults framework] key).or
            (inCustom [overrides, file, frameworkDefaults framework] key) ∧
          (Table.get? fields key = effective [overrides, file, frameworkDefaults framework] key ↔
            ¬ Overtaken [overrides, file, frameworkDefaults framework] key)) := by
  have htop {base t : Table Json} (hbase : overrideAll (frameworkDefaults framework) file = .ok base)
      (ht : overrideAll base overrides = .ok t) {key : String} (hne : key ≠ "custom") :
      t.get? key = atTop [overrides, file, frameworkDefaults framework] key := by
    rw [get?_overrideAll ht hoverrides hne, get?_overrideAll hbase hfile hne, atTop_cons, atTop_cons,
      atTop_cons]
    simp [atTop]
  constructor
  · intro c hc key hkey hne
    obtain ⟨base, hbase, t, ht, hfields⟩ := layered_eq_ok_iff.1 ((load_eq_ok_iff hread).1 hc)
    rw [get?_ofFields hfields hkey hne, htop hbase ht hne]
  · intro hlower hupper
    obtain ⟨base, hbase, hbaseLayer, hbaseCustom⟩ :=
      exists_overrideAll (isLayer_frameworkDefaults framework) hlower
    obtain ⟨t, ht, hlayer, hcustom⟩ := exists_overrideAll hbaseLayer hupper
    obtain ⟨c, hc, hfields⟩ := exists_ofFields hlayer
    refine ⟨c, _, (load_eq_ok_iff hread).2 (layered_eq_ok_iff.2 ⟨base, hbase, t, ht, hc⟩), hfields,
      fun key hkey => ?_⟩
    have hne : key ≠ "custom" := by
      rintro rfl
      exact hkey (by decide)
    have hvalue : Table.get? ((customFields t).merge (unknownFields t)) key =
        (atTop [overrides, file, frameworkDefaults framework] key).or
          (inCustom [overrides, file, frameworkDefaults framework] key) := by
      rw [Table.get?_merge hlayer.nodup_unknownFields, get?_unknownFields hkey, htop hbase ht hne, hcustom,
        Table.get?_merge hupper.nodup_customFields, hbaseCustom,
        Table.get?_merge hlower.nodup_customFields, inCustom_cons, inCustom_cons, inCustom_cons]
      simp [inCustom]
    exact ⟨hvalue, by rw [hvalue, atTop_or_inCustom_eq_iff]⟩

section Prefixes

def prefixFile : Table Json := [("selector_prefix", .str "ui")]

def prefixFolder : Folder := ⟨[("c.json", .file (Json.indented "" (.obj prefixFile)))]⟩

def ownPrefixes : Table Json := [("indent_size", .int 4), ("selector_prefix", .str "my"),
  ("custom", .obj [("selector_prefix", .str "own"), ("theme", .str "dark")])]

lemma fileSettings_prefixFolder : fileSettings prefixFolder "c.json" = .ok prefixFile := by
  decide +kernel

theorem layers_keep_precedence_prefixes : prefixFile.keys.Nodup ∧ ownPrefixes.keys.Nodup ∧
    fileSettings prefixFolder "c.json" = .ok prefixFile ∧
    ∃ c fields, load prefixFolder "angular" (.obj ownPrefixes) "c.json" = .ok c ∧ c.custom = .obj fields ∧
      c.toFields.get? "indent_size" = some (.int 4) ∧
      Table.get? fields "selector_prefix" = some (.str "my") ∧
      Table.get? fields "theme" = some (.str "dark") := by
  have hfile : prefixFile.keys.Nodup := by decide
  have hown : ownPrefixes.keys.Nodup := by decide
  obtain ⟨hsettings, hcustom⟩ :=
    layers_keep_precedence hfile hown fileSettings_prefixFolder "angular"
  obtain ⟨c, fields, hc, hfields, hvalues⟩ := hcustom (by decide) (by decide)
  refine ⟨hfile, hown, fileSettings_prefixFolder, c, fields, hc, hfields, ?_, ?_, ?_⟩
  · exact (hsettings c hc "indent_size" (by decide) (by decide)).trans (by decide +kernel)
  · exact (hvalues "selector_prefix" (by decide)).1.trans (by decide +kernel)
  · exact (hvalues "theme" (by decide)).1.trans (by decide +kernel)

def ownCustomPrefix : Table Json := [("custom", .obj [("selector_prefix", .str "my")])]

/-- A file that has a custom setting at its top is over overrides that have it among the custom ones. -/
theorem layers_lose_precedence : ∃ c fields,
    load prefixFolder "angular" (.obj ownCustomPrefix) "c.json" = .ok c ∧ c.custom = .obj fields ∧
      Table.get? fields "selector_prefix" = some (.str "ui") ∧
      effective [ownCustomPrefix, prefixFile, frameworkDefaults "angular"] "selector_prefix" =
        some (.str "my") :=
  ⟨_, _, (load_eq_ok_iff fileSettings_prefixFolder).2 rfl, rfl, rfl, rfl⟩

end Prefixes

end ViewWriter.Config
