import ViewWriter.Proofs.Config.Layers
import ViewWriter.Proofs.Folder
import ViewWriter.Proofs.Json.OneLine

/-! Settings that are saved in a file. They are loaded from it as they were, and with a framework the
custom settings of the framework are below their own. -/

namespace ViewWriter.Config

/-- The value is read from what is written for it. -/
def ReadsBack (v : Json) : Prop := Json.read (Json.indented "" v) = .ok v

def withCustom (c : Config) (fields : Table Json) : Config := { c with custom := .obj fields }

def defaultCustom (framework : String) : Table Json := customFields (frameworkDefaults framework)

variable {a b c : Config} {custom : Table Json} {folder saved : Folder} {path framework key : String}

section Fields

lemma keys_toFields (c : Config) : c.toFields.keys = settingNames := rfl

lemma get?_toFields_of_unknown (h : key ∉ settingNames) : c.toFields.get? key = none :=
  Table.get?_of_notMem (keys_toFields c ▸ h)

lemma get?_toFields_custom (c : Config) : c.toFields.get? "custom" = some c.custom := rfl

lemma get?_toFields_withCustom (c : Config) (fields : Table Json) (hne : key ≠ "custom") :
    (c.withCustom fields).toFields.get? key = c.toFields.get? key := by
  simp [toFields, withCustom, Table.get?_cons, hne]

lemma withCustom_eq_self (hcustom : c.custom = .obj custom) : c.withCustom custom = c := by
  rw [withCustom, ← hcustom]

lemma isLayer_toFields (hcustom : c.custom = .obj custom) (hkeys : custom.keys.Nodup) :
    IsLayer c.toFields where
  distinct := by
    rw [keys_toFields]
    decide
  custom v hv := by
    rw [get?_toFields_custom, Option.some.injEq] at hv
    exact ⟨custom, hv ▸ hcustom, hkeys⟩

lemma eq_of_toFields (hcustom : a.custom = b.custom) (h : ∀ key ∈ settingNames, key ≠ "custom" →
    a.toFields.get? key = b.toFields.get? key) : a = b := by
  have hdistinct : a.toFields.keys.Nodup := by
    rw [keys_toFields]
    decide
  have hfields : a.toFields = b.toFields := by
    refine Table.ext_get? hdistinct rfl fun key => ?_
    by_cases hkey : key ∈ settingNames
    · by_cases hne : key = "custom"
      · rw [hne, get?_toFields_custom, get?_toFields_custom, hcustom]
      · exact h key hkey hne
    · rw [get?_toFields_of_unknown hkey, get?_toFields_of_unknown hkey]
  cases a
  cases b
  simpa [toFields] using hfields

end Fields

section Reading

lemma readFile_of_save (hsave : c.save folder path = .ok saved)
    (hpath : Text.lower (Path.suffix path) = ".json") (hreads : ReadsBack (.obj c.toFields)) :
    readFile saved path = .ok c.toFields := by
  have hwrite := mapError_eq_ok_iff.1 hsave
  have hmargin : IsPrinted "" := by decide
  have hplain := (Json.isPrinted_indented hmargin (.obj c.toFields)).carriageReturn_notMem
  rw [readFile]
  simp only [Folder.has_of_write hwrite, hpath, Folder.read_of_write hwrite hplain]
  rw [hreads]
  rfl

lemma fileSettings_of_save (hsave : c.save folder path = .ok saved)
    (hpath : Text.lower (Path.suffix path) = ".json") (hreads : ReadsBack (.obj c.toFields)) :
    fileSettings saved path = .ok c.toFields := by
  have hne : path ≠ "" := by
    rintro rfl
    exact absurd hpath (by decide +kernel)
  rw [fileSettings, if_neg (by simpa using hne)]
  exact readFile_of_save hsave hpath hreads

/-- The settings of a framework with a file that has all settings are those of the file, but for the
custom settings of the framework that the file does not have. -/
lemma layered_toFields (hcustom : c.custom = .obj custom) (hkeys : custom.keys.Nodup)
    (framework : String) : layered framework c.toFields .null =
      .ok (c.withCustom ((defaultCustom framework).merge custom)) := by
  have hfile := isLayer_toFields hcustom hkeys
  obtain ⟨t, ht, hlayer, hmerged⟩ := exists_overrideAll (isLayer_frameworkDefaults framework) hfile
  obtain ⟨c', hc', hcustom'⟩ := exists_ofFields hlayer
  have hunknown : unknownFields t = [] := by
    refine List.filter_eq_nil_iff.2 fun e he hnew => ?_
    have hnew : e.1 ∉ settingNames := by simpa using hnew
    have hne : e.1 ≠ "custom" := fun heq => hnew (heq ▸ by decide)
    have hget := Table.get?_of_mem hlayer.distinct (show (e.1, e.2) ∈ t from he)
    rw [get?_overrideAll ht hfile.distinct hne, get?_toFields_of_unknown hnew,
      frameworkDefaults_of_unknown framework hnew] at hget
    cases hget
  have hown : customFields c.toFields = custom := by
    rw [customFields, get?_toFields_custom, hcustom]
    rfl
  have hsame : c' = c.withCustom ((defaultCustom framework).merge custom) := by
    refine eq_of_toFields ?_ fun key hkey hne => ?_
    · rw [hcustom', hunknown, hmerged, hown]
      rfl
    · obtain ⟨v, hv⟩ := Table.exists_get?_of_mem (t := c.toFields) (keys_toFields c ▸ hkey)
      rw [get?_ofFields hc' hkey hne, get?_overrideAll ht hfile.distinct hne,
        get?_toFields_withCustom c _ hne, hv]
      rfl
  have hnone : layered framework c.toFields .null = layered framework c.toFields (.obj []) := rfl
  rw [← hsame, hnone]
  exact layered_eq_ok_iff.2 ⟨t, ht, t, rfl, hc'⟩

lemma loads_of_save (hcustom : c.custom = .obj custom) (hkeys : custom.keys.Nodup)
    (hpath : Text.lower (Path.suffix path) = ".json") (hsave : c.save folder path = .ok saved)
    (hreads : ReadsBack (.obj c.toFields)) (framework : String) :
    load saved framework .null path = .ok (c.withCustom ((defaultCustom framework).merge custom)) :=
  (load_eq_ok_iff (fileSettings_of_save hsave hpath hreads)).2 (layered_toFields hcustom hkeys framework)

lemma loads_plain (hcustom : c.custom = .obj custom) (hkeys : custom.keys.Nodup)
    (hpath : Text.lower (Path.suffix path) = ".json") (hsave : c.save folder path = .ok saved)
    (hreads : ReadsBack (.obj c.toFields)) : load saved "" .null path = .ok c := by
  have hmerge : (defaultCustom "").merge custom = custom := Table.ofEntries_of_nodup hkeys
  rw [loads_of_save hcustom hkeys hpath hsave hreads, hmerge, withCustom_eq_self hcustom]

end Reading

/-- Saved settings are loaded from their file as they were, if what is written for them is read back. With
a framework they are loaded with its custom settings below their own, and once these have been saved
they are loaded as they are. -/
theorem saved_settings_load (hcustom : c.custom = .obj custom) (hkeys : custom.keys.Nodup)
    (hpath : Text.lower (Path.suffix path) = ".json") (hsave : c.save folder path = .ok saved)
    (hreads : ReadsBack (.obj c.toFields)) :
    load saved "" .null path = .ok c ∧
    ∀ framework, load saved framework .null path =
        .ok (c.withCustom ((defaultCustom framework).merge custom)) ∧
      ∀ {c' folder' path' saved'}, c' = c.withCustom ((defaultCustom framework).merge custom) →
        Text.lower (Path.suffix path') = ".json" → c'.save folder' path' = .ok saved' →
          ReadsBack (.obj c'.toFields) →
            load saved' framework .null path' = .ok c' ∧ load saved' "" .null path' = .ok c' := by
  refine ⟨loads_plain hcustom hkeys hpath hsave hreads, fun framework =>
    ⟨loads_of_save hcustom hkeys hpath hsave hreads framework, ?_⟩⟩
  rintro c' folder' path' saved' rfl hpath' hsave' hreads'
  have hdefaults : (defaultCustom framework).keys.Nodup :=
    (isLayer_frameworkDefaults framework).nodup_customFields
  have hmerged : ((defaultCustom framework).merge custom).keys.Nodup :=
    Table.nodup_keys_merge hdefaults custom
  have hagain := loads_of_save rfl hmerged hpath' hsave' hreads'
  refine ⟨?_, loads_plain rfl hmerged hpath' hsave' hreads'⟩
  rw [hagain framework, Table.merge_merge hdefaults hkeys]
  rfl

section German

def german : Config :=
  { eagerThreshold := .int 1, preserveImports := .arr [], custom := .obj [("lang", .str "de")] }

def germanFolder : Folder := ⟨[("c.json", .file (Json.indented "" (.obj german.toFields)))]⟩

open Json in
/-- What is read from the characters of a text. -/
def readFrom (cs : List Char) : Except ReadError Json :=
  if cs.head? == some '\uFEFF' then .error (.locate cs .byteOrderMark 0)
  else match value (skipBlank cs) with
    | .error e => .error (.locate cs e.problem (cs.length - e.left))
    | .ok p =>
      match skipBlank p.rest with
      | [] => .ok p.value
      | rest => .error (.locate cs .extraData (cs.length - rest.length))

lemma read_eq (s : String) : Json.read s = readFrom s.toList := rfl

lemma readsBack_german : ReadsBack (.obj german.toFields) := by
  rw [ReadsBack, read_eq]
  simp only [german, toFields, Json.indented, Json.indentedFields, Json.indentedItems, Json.block,
    Json.compact, Json.literal, Text.join, List.map_cons, List.map_nil, List.isEmpty_cons,
    List.isEmpty_nil, Bool.false_eq_true, if_false, if_true, String.toList_append, String.toList_ofList]
  -- the texts as lists of characters, which the kernel would decode one byte after the other
  repeat rw [String.toList_ofList]
  decide +kernel

theorem saved_settings_load_german :
    german.custom = .obj [("lang", .str "de")] ∧ (Table.keys [("lang", Json.str "de")]).Nodup ∧
    Text.lower (Path.suffix "c.json") = ".json" ∧ german.save {} "c.json" = .ok germanFolder ∧
    ReadsBack (.obj german.toFields) ∧
    load germanFolder "" .null "c.json" = .ok german ∧
    load germanFolder "html" .null "c.json" = .ok german ∧
    load germanFolder "angular" .null "c.json" =
      .ok (german.withCustom [("selector_prefix", .str "app"), ("lang", .str "de")]) := by
  have hkeys : (Table.keys [("lang", Json.str "de")]).Nodup := by decide
  have hpath : Text.lower (Path.suffix "c.json") = ".json" := by decide +kernel
  have hsave : german.save {} "c.json" = .ok germanFolder := rfl
  obtain ⟨hplain, hframework⟩ := saved_settings_load rfl hkeys hpath hsave readsBack_german
  obtain ⟨-, hagain⟩ := hframework "html"
  obtain ⟨hangular, -⟩ := hframework "angular"
  obtain ⟨hhtml, -⟩ := hagain rfl hpath hsave readsBack_german
  exact ⟨rfl, hkeys, hpath, hsave, readsBack_german, hplain, hhtml, hangular⟩

end German

end ViewWriter.Config
