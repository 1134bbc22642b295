import ViewWriter.Analysis.Declaration
import ViewWriter.Proofs.Traversal

/-! The names that are imported. They are those that nodes declare and, in their component form, the
types of custom nodes. Of several that would be imported under one name the first counts. -/

namespace ViewWriter.Analysis

open ViewWriter.Schema

/-- An entry that imports a name from somewhere. -/
structure Declares (entry : Table Json) (name : String) : Prop where
  named : givenText? entry "name" = some name
  sourced : ∃ source, givenText? entry "source" = some source
  binding : Name.isBinding name

/-- The name under which a type is imported that no node declares. -/
def componentForm (type : String) : String := Name.component type Name.defaultComponent

/-- The names that records import. -/
inductive Binds (records : List Record) : String → Prop
  | declared {entry : Table Json} {name : String} :
      entry ∈ declared records "imports" "name" "source" → Declares entry name → Binds records name
  | component {r : Record} : r ∈ records → r.isCustom → Binds records (componentForm r.type)

def bindingOf? (entry : Table Json) : Option String :=
  match givenText? entry "name", givenText? entry "source" with
  | some name, some _ => if Name.isBinding name then some name else none
  | _, _ => none

def Import.ofEntry (entry : Table Json) : Except Fault Import :=
  (weightOf ((entry.get? "weight").getD (.float .one))).map fun weight =>
    ⟨(Json.member entry "name").display, (Json.member entry "source").display, weight⟩

def componentOf? (r : Record) : Option String :=
  if r.isCustom then some (componentForm r.type) else none

def Import.ofRecord (sections : List (List Record)) (r : Record) : Import :=
  ⟨componentForm r.type, "./" ++ componentForm r.type, share sections r.type⟩

variable {seen : List String} {name : String} {entry : Table Json} {r : Record}

lemma display_of_given {key : String} (h : givenText? entry key = some name) :
    (Json.member entry key).display = name := by
  rw [givenText?] at h
  split at h
  · exact Option.some.inj h
  · cases h

lemma bindingOf?_eq_some_iff : bindingOf? entry = some name ↔ Declares entry name := by
  rw [bindingOf?]
  constructor
  · intro h
    split at h
    · rename_i own source hname hsource
      split_ifs at h with hbinding
      cases h
      exact ⟨hname, ⟨source, hsource⟩, hbinding⟩
    · cases h
  · rintro ⟨hname, ⟨source, hsource⟩, hbinding⟩
    rw [hname, hsource]
    exact if_pos hbinding

lemma componentOf?_eq_some_iff :
    componentOf? r = some name ↔ r.isCustom ∧ componentForm r.type = name := by
  rw [componentOf?]
  split_ifs with hcustom <;> simp [hcustom]

lemma declaredImportsOf_eq (seen : List String) (entries : List (Table Json)) :
    declaredImportsOf seen entries = (firstsAfter bindingOf? seen entries).mapM Import.ofEntry := by
  induction entries generalizing seen with
  | nil => rfl
  | cons entry rest ih =>
    rw [declaredImportsOf]
    cases hname : bindingOf? entry with
    | none =>
      rw [firstsAfter_unnamed hname, ← ih]
      split
      · rename_i own source hown hsource
        have hbinding : Name.isBinding own = false := by
          rw [← Bool.not_eq_true]
          intro hbinding
          cases (bindingOf?_eq_some_iff.2 ⟨hown, ⟨source, hsource⟩, hbinding⟩).symm.trans hname
        rw [hbinding]
        rfl
      · rfl
    | some name =>
      obtain ⟨hown, ⟨source, hsource⟩, hbinding⟩ := bindingOf?_eq_some_iff.1 hname
      simp only [hown, hsource, hbinding, Bool.not_true, Bool.false_or, List.contains_iff_mem]
      split_ifs with hseen
      · rw [firstsAfter_seen hname hseen, ← ih]
      · rw [firstsAfter_new hname hseen, List.mapM_cons, ← ih, Import.ofEntry, display_of_given hown,
          display_of_given hsource]
        cases weightOf ((entry.get? "weight").getD (.float .one)) <;> rfl

lemma implicitImports_eq (sections : List (List Record)) (seen : List String)
    (records : List Record) : implicitImports sections seen records =
      (firstsAfter componentOf? seen records).map (Import.ofRecord sections) := by
  induction records generalizing seen with
  | nil => rfl
  | cons r rest ih =>
    rw [implicitImports, ← componentForm]
    cases hname : componentOf? r with
    | none =>
      have hcustom : r.isCustom = false := by
        rw [componentOf?] at hname
        split_ifs at hname with hcustom
        simpa using hcustom
      rw [firstsAfter_unnamed hname, ← ih, hcustom]
      rfl
    | some name =>
      obtain ⟨hcustom, hform⟩ := componentOf?_eq_some_iff.1 hname
      simp only [hcustom, hform, Bool.not_true, Bool.false_or, List.contains_iff_mem]
      split_ifs with hseen
      · rw [firstsAfter_seen hname hseen, ← ih]
      · rw [firstsAfter_new hname hseen, List.map_cons, ← ih, Import.ofRecord, hform]

lemma names_of_declaredImports {entries : List (Table Json)} {found : List Import}
    (h : declaredImportsOf seen entries = .ok found) :
    found.map (·.name) = (firstsAfter bindingOf? seen entries).filterMap bindingOf? := by
  rw [declaredImportsOf_eq] at h
  refine names_of_mapM_firstsAfter h fun entry name i hname hi => ?_
  obtain ⟨weight, -, rfl⟩ := map_eq_ok_iff.1 hi
  exact display_of_given (bindingOf?_eq_some_iff.1 hname).named

lemma exists_declaredImport {entries : List (Table Json)} {found : List Import}
    (h : declaredImportsOf seen entries = .ok found) :
    (∃ i ∈ found, i.name = name) ↔ name ∉ seen ∧ ∃ entry ∈ entries, Declares entry name := by
  simp only [← bindingOf?_eq_some_iff]
  rw [← List.mem_map, names_of_declaredImports h, List.mem_filterMap, exists_firstsAfter]

lemma names_of_implicitImports {sections : List (List Record)} {records : List Record} :
    (implicitImports sections seen records).map (·.name) =
      (firstsAfter componentOf? seen records).filterMap componentOf? := by
  have hnamed : ∀ r ∈ firstsAfter componentOf? seen records,
      componentOf? r = some (componentForm r.type) := by
    intro r hr
    obtain ⟨own, hown⟩ := exists_name_of_mem hr
    exact hown.trans (congrArg some (componentOf?_eq_some_iff.1 hown).2.symm)
  rw [implicitImports_eq, List.map_map, ← List.filterMap_eq_map]
  exact List.filterMap_congr fun r hr => (hnamed r hr).symm

lemma exists_implicitImport {sections : List (List Record)} {records : List Record} :
    (∃ i ∈ implicitImports sections seen records, i.name = name) ↔
      name ∉ seen ∧ ∃ r ∈ records, r.isCustom ∧ componentForm r.type = name := by
  simp only [← componentOf?_eq_some_iff]
  rw [← List.mem_map, names_of_implicitImports, List.mem_filterMap, exists_firstsAfter]

lemma exists_import {records : List Record} {sections : List (List Record)} {found : List Import}
    (h : imports records sections = .ok found) :
    (∃ i ∈ found, i.name = name) ↔ Binds records name := by
  obtain ⟨given, hgiven, h⟩ := bind_eq_ok_iff.1 h
  cases h
  have hdeclared : (∃ i ∈ given, i.name = name) ↔ _ := exists_declaredImport hgiven
  have hseen : name ∈ given.map (·.name) ↔ ∃ i ∈ given, i.name = name := List.mem_map
  have himplicit :
      (∃ i ∈ implicitImports sections (given.map (·.name)) records, i.name = name) ↔ _ :=
    exists_implicitImport
  simp only [List.mem_append, or_and_right, exists_or]
  rw [himplicit, hseen]
  constructor
  · rintro (hgiven | ⟨-, r, hr, hcustom, rfl⟩)
    · obtain ⟨-, entry, hentry, hname⟩ := hdeclared.1 hgiven
      exact .declared hentry hname
    · exact .component hr hcustom
  · intro hbinds
    by_cases hgiven : ∃ i ∈ given, i.name = name
    · exact .inl hgiven
    · refine .inr ⟨hgiven, ?_⟩
      cases hbinds with
      | declared hentry hname =>
        exact absurd (hdeclared.2 ⟨List.not_mem_nil, _, hentry, hname⟩) hgiven
      | component hr hcustom => exact ⟨_, hr, hcustom, rfl⟩

lemma nodup_imports {records : List Record} {sections : List (List Record)} {found : List Import}
    (h : imports records sections = .ok found) : (found.map (·.name)).Nodup := by
  obtain ⟨given, hgiven, h⟩ := bind_eq_ok_iff.1 h
  cases h
  rw [List.map_append]
  refine List.Nodup.append ?_ ?_ fun name hname himplicit => ?_
  · rw [names_of_declaredImports hgiven]
    exact nodup_firstsAfter [] _
  · rw [names_of_implicitImports]
    exact nodup_firstsAfter _ records
  · exact (exists_implicitImport.1 (List.mem_map.1 himplicit)).1 hname

end ViewWriter.Analysis

/-! The names of state variables, properties and functions. They are those that nodes give, in the
form of variables. -/

namespace ViewWriter.Analysis

open ViewWriter.Schema

/-- A name that some node gives under a key. -/
def Gives (records : List Record) (key valueName name : String) : Prop :=
  ∃ entry ∈ declared records key "name" valueName, givenText? entry "name" = some name

variable {records : List Record} {name : String}

def variableOf? (entry : Table Json) : Option String :=
  (givenText? entry "name").map Name.Sanitizer.variableName

def Function.ofEntry (entry : Table Json) : Except Fault Function :=
  (texts (Json.member entry "params")).map fun params =>
    ⟨Name.Sanitizer.variableName (Json.member entry "name").display, params, textMember entry "body"⟩

lemma name_of_ofEntry_state (entry : Table Json) :
    (StateVariable.ofEntry? entry).map (·.name) = variableOf? entry := by
  cases hname : givenText? entry "name" <;> simp [StateVariable.ofEntry?, variableOf?, hname]

lemma name_of_ofEntry_property (entry : Table Json) :
    (Property.ofEntry? entry).map (·.name) = variableOf? entry := by
  cases hname : givenText? entry "name" <;> simp [Property.ofEntry?, variableOf?, hname]

lemma firstByName_filterMap {α : Type} {ofEntry : Table Json → Option α} {made : α → String}
    (hname : ∀ entry, (ofEntry entry).map made = variableOf? entry) (entries : List (Table Json)) :
    firstByName made (entries.filterMap ofEntry) =
      (firsts variableOf? entries).filterMap ofEntry := by
  have hgo (seen : List String) : firstByName.go made seen (entries.filterMap ofEntry) =
      (firstsAfter variableOf? seen entries).filterMap ofEntry := by
    induction entries generalizing seen with
    | nil => rfl
    | cons entry rest ih =>
      have hown := hname entry
      cases hmade : ofEntry entry with
      | none =>
        rw [hmade] at hown
        rw [List.filterMap_cons_none hmade, firstsAfter_unnamed hown.symm, ih]
      | some x =>
        rw [hmade] at hown
        rw [List.filterMap_cons_some hmade, firstByName.go]
        split_ifs with hseen
        · rw [firstsAfter_seen hown.symm (List.contains_iff_mem.1 hseen), ih]
        · rw [firstsAfter_new hown.symm (by simpa using hseen), List.filterMap_cons_some hmade, ih]
  rw [firstByName, hgo, firstsAfter_of_nil]

lemma stateVariables_eq (records : List Record) : stateVariables records =
    (firsts variableOf? (declared records "state" "name" "initial")).filterMap
      StateVariable.ofEntry? :=
  firstByName_filterMap name_of_ofEntry_state _

lemma properties_eq (records : List Record) : properties records =
    (firsts variableOf? (declared records "propDefs" "name" "type")).filterMap Property.ofEntry? :=
  firstByName_filterMap name_of_ofEntry_property _

lemma functionsOf_eq (seen : List String) (entries : List (Table Json)) :
    functionsOf seen entries = (firstsAfter variableOf? seen entries).mapM Function.ofEntry := by
  induction entries generalizing seen with
  | nil => rfl
  | cons entry rest ih =>
    rw [functionsOf]
    cases hgiven : givenText? entry "name" with
    | none =>
      have hname : variableOf? entry = none := by rw [variableOf?, hgiven]; rfl
      rw [firstsAfter_unnamed hname, ← ih]
    | some given =>
      have hname : variableOf? entry = some (Name.Sanitizer.variableName given) := by
        rw [variableOf?, hgiven]
        rfl
      simp only [List.contains_iff_mem]
      split_ifs with hseen
      · rw [firstsAfter_seen hname hseen, ← ih]
      · rw [firstsAfter_new hname hseen, List.mapM_cons, ← ih, Function.ofEntry,
          display_of_given hgiven]
        cases texts (Json.member entry "params") <;> rfl

lemma functions_eq (records : List Record) : functions records =
    (firsts variableOf? (declared records "functions" "name" "body")).mapM Function.ofEntry := by
  rw [functions, functionsOf_eq, firstsAfter_of_nil]

/-- A value that can be gone through. -/
def isCollection : Json → Bool
  | .arr _ | .str _ | .obj _ => true
  | _ => false

/-- A value of which there are texts; one that does not count as given has none. -/
def isListable (v : Json) : Bool := !v.isGiven || isCollection v

lemma exists_texts {v : Json} : (∃ ts, texts v = .ok ts) ↔ isListable v := by
  have helements : (∃ ts, texts v = .ok ts) ↔ ∃ items, (v.orElse (.arr [])).elements = .ok items := by
    simp only [texts, bind_eq_ok_iff]
    exact ⟨fun ⟨_, items, hitems, _⟩ => ⟨items, hitems⟩, fun ⟨items, hitems⟩ => ⟨_, items, hitems, rfl⟩⟩
  rw [helements, isListable, Json.orElse]
  by_cases hgiven : v.isGiven = true
  · rw [if_pos hgiven, hgiven, Bool.not_true, Bool.false_or]
    cases v <;> simp [Json.elements, isCollection]
  · rw [if_neg hgiven, eq_false_of_ne_true hgiven]
    exact iff_of_true ⟨[], rfl⟩ rfl

lemma exists_functions (h : ∀ entry ∈ declared records "functions" "name" "body",
    isListable (Json.member entry "params")) : ∃ found, functions records = .ok found := by
  rw [functions_eq]
  refine exists_mapM fun entry hentry => ?_
  obtain ⟨params, hparams⟩ := exists_texts.2
    (h entry ((firstsAfter_sublist [] _).subset (by rwa [firstsAfter_of_nil])))
  exact ⟨_, map_eq_ok_iff.2 ⟨params, hparams, rfl⟩⟩

lemma names_of_firsts {α : Type} {ofEntry : Table Json → Option α} {made : α → String}
    (hname : ∀ entry, (ofEntry entry).map made = variableOf? entry) (entries : List (Table Json)) :
    ((firsts variableOf? entries).filterMap ofEntry).map made =
      (firsts variableOf? entries).filterMap variableOf? := by
  rw [List.map_filterMap]
  exact List.filterMap_congr fun entry _ => hname entry

lemma names_of_stateVariables (records : List Record) : (stateVariables records).map (·.name) =
    (firsts variableOf? (declared records "state" "name" "initial")).filterMap variableOf? := by
  rw [stateVariables_eq, names_of_firsts name_of_ofEntry_state]

lemma names_of_properties (records : List Record) : (properties records).map (·.name) =
    (firsts variableOf? (declared records "propDefs" "name" "type")).filterMap variableOf? := by
  rw [properties_eq, names_of_firsts name_of_ofEntry_property]

lemma names_of_functions {found : List Function} (h : functions records = .ok found) :
    found.map (·.name) =
      (firsts variableOf? (declared records "functions" "name" "body")).filterMap variableOf? := by
  rw [functions_eq, ← firstsAfter_of_nil] at h
  rw [← firstsAfter_of_nil]
  refine names_of_mapM_firstsAfter h fun entry name f hname hf => ?_
  obtain ⟨params, -, rfl⟩ := map_eq_ok_iff.1 hf
  obtain ⟨given, hgiven, rfl⟩ := Option.map_eq_some_iff.1 hname
  dsimp only
  rw [display_of_given hgiven]

lemma mem_names_firsts {key valueName : String} :
    name ∈ (firsts variableOf? (declared records key "name" valueName)).filterMap variableOf? ↔
      ∃ given, Gives records key valueName given ∧ Name.Sanitizer.variableName given = name := by
  rw [List.mem_filterMap, exists_firsts]
  simp only [variableOf?, Option.map_eq_some_iff, Gives]
  constructor
  · rintro ⟨entry, hentry, given, hgiven, hname⟩
    exact ⟨given, ⟨entry, hentry, hgiven⟩, hname⟩
  · rintro ⟨given, ⟨entry, hentry, hgiven⟩, hname⟩
    exact ⟨entry, hentry, given, hgiven, hname⟩

lemma exists_stateVariable : (∃ x ∈ stateVariables records, x.name = name) ↔
    ∃ given, Gives records "state" "initial" given ∧ Name.Sanitizer.variableName given = name := by
  rw [← List.mem_map, names_of_stateVariables, mem_names_firsts]

lemma exists_property : (∃ x ∈ properties records, x.name = name) ↔
    ∃ given, Gives records "propDefs" "type" given ∧ Name.Sanitizer.variableName given = name := by
  rw [← List.mem_map, names_of_properties, mem_names_firsts]

lemma name_of_mem_properties {x : Property} (h : x ∈ properties records) :
    ∃ given, x.name = Name.Sanitizer.variableName given := by
  obtain ⟨given, -, hname⟩ := exists_property.1 ⟨x, h, rfl⟩
  exact ⟨given, hname.symm⟩

lemma exists_function {found : List Function} (h : functions records = .ok found) :
    (∃ f ∈ found, f.name = name) ↔
      ∃ given, Gives records "functions" "body" given ∧ Name.Sanitizer.variableName given = name := by
  rw [← List.mem_map, names_of_functions h, mem_names_firsts]

end ViewWriter.Analysis
