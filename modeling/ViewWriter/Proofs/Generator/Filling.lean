import ViewWriter.Proofs.Analysis.Texts
import ViewWriter.Proofs.Generator.Equipment
import ViewWriter.Proofs.Generator.Subjects
import ViewWriter.Proofs.Template.Junctions

/-! What main templates are filled with. The context of a view keeps to a reading of a template if the
texts of the view that are read avoid the needle. -/

namespace ViewWriter

open ViewWriter.Text ViewWriter.Analysis ViewWriter.Template

def Filling.lists : List String := ["imports", "state", "effects", "functions", "props"]

/-- What is read of the context of a main template. -/
structure Filling where
  head : Char
  isOwn : String → Bool
  /-- keys of values whose texts avoid the needle -/
  keys : List String
  /-- keys of the lists that are gone over -/
  loops : List String := Filling.lists
  /-- the name of the view has no slashes -/
  named : Bool := false
  /-- types do not go on like the needle after its first character -/
  typed : Bool := false
  /-- the language of documents is read -/
  language : Bool := false
  escapes : Bool := false

namespace Filling

/-- Keys whose values are read in more than one way. -/
def special : List String := "componentName" :: "custom" :: lists

def singles : List String := [
  "componentName", "markup", "description", "pageName", "pageTitle", "styleFile", "hooks",
  "propsSignature", "jsxContent", "vueImports", "className", "selector", "standaloneImports",
  "coreImports", "lifecycle", "scopeNames"]

def reading (F : Filling) : Reading where
  head := F.head
  isOwn := F.isOwn
  paths := F.keys.map ([·]) ++ if F.language then [["custom", "lang"]] else []
  loops := F.loops.map ([·])
  names := (if F.named then [["componentName"]] else []) ++ [["item", "name"], ["item", "setter"]]
  tails := if F.typed then [["item", "type"]] else []
  escapes := F.escapes

/-- A filling with keys of main templates. -/
structure Formed (F : Filling) : Prop where
  keys : F.keys ⊆ singles
  loops : F.loops ⊆ lists

/-- A member of an item avoids the needle, has no slashes if it is a name, and does not go on like the
needle where it should not. -/
structure Fits (F : Filling) (n : Needle) (e : String × Json) : Prop where
  key : n.Avoids e.1.toList
  value : e.2.Avoids n
  named : e.1 = "name" ∨ e.1 = "setter" → '/' ∉ (stringify e.2).toList
  typed : F.typed = true → e.1 = "type" → ¬ n.Continues (stringify e.2).toList

def Suits (F : Filling) (n : Needle) (item : Table Json) : Prop := ∀ e ∈ item, F.Fits n e

/-- An entry of a context keeps to what is read of it. -/
structure Takes (F : Filling) (n : Needle) (e : String × Json) : Prop where
  value : e.1 ∈ F.keys → e.2.Avoids n
  named : F.named = true → e.1 = "componentName" → '/' ∉ (stringify e.2).toList
  language : F.language = true → e.1 = "custom" → ∀ v, Leads e.2 ["lang"] v → v.Avoids n
  items : e.1 ∈ F.loops → ∃ ts, e.2 = objects ts ∧ ∀ t ∈ ts, F.Suits n t

section Contexts

variable {F : Filling} {n : Needle} {fields : Table Json} {key : String} {v : Json}

lemma Suits.texts {item : Table Json} (h : F.Suits n item) : (Json.obj item).Avoids n :=
  Json.avoids_obj.2 fun e he => ⟨(h e he).key, (h e he).value⟩

lemma leads_single (h : Leads (.obj fields) [key] v) : (key, v) ∈ fields := by
  obtain ⟨w, hw, h⟩ := leads_cons_iff.1 h
  cases h
  exact Table.mem_of_get? hw

lemma holds (hitem : "item" ∉ fields.keys) (h : ∀ e ∈ fields, F.Takes n e) :
    F.reading.Holds n (.obj fields) := by
  have hno {path : List String} {w : Json} : ¬ Leads (.obj fields) ("item" :: path) w := by
    intro hw
    obtain ⟨w, hget, -⟩ := leads_cons_iff.1 hw
    exact hitem (Table.mem_keys_of_mem (Table.mem_of_get? hget))
  refine ⟨fun path hpath v hv => ?_, fun v hv => absurd hv hno, fun path v hv => ⟨fun hname => ?_,
    fun htail => ?_⟩, fun path hpath items hitems item hmem path' v hv => ?_⟩
  · rw [reading, List.append_assoc, List.mem_append, List.mem_append] at hpath
    rcases hpath with hpath | hpath | hpath
    · obtain ⟨key, hkey, rfl⟩ := List.mem_map.1 hpath
      exact (h _ (leads_single hv)).value hkey
    · split_ifs at hpath with hlanguage
      · rw [List.mem_singleton.1 hpath] at hv
        obtain ⟨w, hw, hv⟩ := leads_cons_iff.1 hv
        exact (h _ (Table.mem_of_get? hw)).language hlanguage rfl v hv
      · cases hpath
    · obtain ⟨key, hkey, rfl⟩ := List.mem_map.1 hpath
      obtain ⟨ts, hts, hitems⟩ := (h _ (leads_single hv)).items hkey
      rw [show v = objects ts from hts]
      exact avoids_objects fun t ht => (hitems t ht).texts
  · simp only [reading, List.mem_append, List.mem_cons, List.not_mem_nil, or_false] at hname
    rcases hname with hname | rfl | rfl
    · split_ifs at hname with hnamed
      · rw [List.mem_singleton.1 hname] at hv
        exact (h _ (leads_single hv)).named hnamed rfl
      · cases hname
    · exact absurd hv hno
    · exact absurd hv hno
  · simp only [reading] at htail
    split_ifs at htail
    · rw [List.mem_singleton.1 htail] at hv
      exact absurd hv hno
    · cases htail
  · obtain ⟨key, hkey, rfl⟩ := List.mem_map.1 hpath
    obtain ⟨ts, hts, hsuits⟩ := (h _ (leads_single hitems)).items hkey
    obtain rfl := Json.arr.inj hts
    obtain ⟨t, ht, rfl⟩ := List.mem_map.1 hmem
    refine ⟨fun hname => ?_, fun htail => ?_⟩
    · simp only [reading, List.mem_append, List.mem_cons, List.cons.injEq, true_and,
        List.not_mem_nil, or_false] at hname
      rcases hname with hname | rfl | rfl
      · split_ifs at hname
        · exact absurd (List.mem_singleton.1 hname) (by simp)
        · cases hname
      · exact (hsuits t ht _ (leads_single hv)).named (.inl rfl)
      · exact (hsuits t ht _ (leads_single hv)).named (.inr rfl)
    · simp only [reading] at htail
      split_ifs at htail with htyped
      · cases List.mem_singleton.1 htail
        exact (hsuits t ht _ (leads_single hv)).typed htyped rfl
      · cases htail

variable (hF : F.Formed)
include hF

lemma takes_single (hkey : key ∉ special) (h : key ∈ F.keys → v.Avoids n) : F.Takes n (key, v) := by
  simp only [special, List.mem_cons, not_or] at hkey
  exact ⟨h, fun _ hname => absurd hname hkey.1, fun _ hcustom => absurd hcustom hkey.2.1,
    fun hloop => absurd (hF.loops hloop) hkey.2.2⟩

lemma takes_unread (hkey : key ∉ special) (hsingle : key ∉ singles) : F.Takes n (key, v) :=
  takes_single hF hkey fun h => absurd (hF.keys h) hsingle

lemma takes_bool (hkey : key ∉ special) (b : Bool) : F.Takes n (key, .bool b) :=
  takes_single hF hkey fun _ => Json.avoids_bool b

lemma takes_strings (hkey : key ∉ special) {xs : List String} (h : ∀ x ∈ xs, n.Avoids x.toList) :
    F.Takes n (key, .ofStrings xs) :=
  takes_single hF hkey fun _ => Json.avoids_ofStrings.2 h

lemma takes_objects (hkey : key ∈ lists) {ts : List (Table Json)}
    (h : key ∈ F.loops → ∀ t ∈ ts, F.Suits n t) : F.Takes n (key, objects ts) := by
  have hother : ∀ k ∈ lists, k ∉ singles ∧ k ≠ "componentName" ∧ k ≠ "custom" := by decide
  obtain ⟨hsingle, hname, hcustom⟩ := hother key hkey
  exact ⟨fun h => absurd (hF.keys h) hsingle, fun _ hk => absurd hk hname,
    fun _ hk => absurd hk hcustom, fun hloop => ⟨ts, rfl, h hloop⟩⟩

end Contexts

/-! Declarations as items. -/

section Items

variable {F : Filling} {n : Needle} {item : Table Json}

lemma suits_of_texts (h : (Json.obj item).Avoids n)
    (hnamed : ∀ e ∈ item, e.1 = "name" ∨ e.1 = "setter" → '/' ∉ (stringify e.2).toList)
    (htyped : F.typed = true → ∀ e ∈ item, e.1 = "type" → ¬ n.Continues (stringify e.2).toList) :
    F.Suits n item := by
  intro e he
  obtain ⟨hkey, hvalue⟩ := Json.avoids_obj.1 h e he
  exact ⟨hkey, hvalue, hnamed e he, fun ht => htyped ht e he⟩

lemma suits_stateVariable {x : StateVariable} (h : x.Avoids n)
    (htyped : F.typed = true → ¬ n.Continues (stringify x.type).toList) : F.Suits n x.toFields := by
  refine suits_of_texts h.fields ?_ fun ht => ?_
  · simpa [StateVariable.toFields, stringify] using ⟨h.name.slash_notMem, h.setter.slash_notMem⟩
  · simpa [StateVariable.toFields] using htyped ht

lemma suits_effect {e : Effect} (h : e.Avoids n) : F.Suits n e.toFields :=
  suits_of_texts h.fields (by simp [Effect.toFields]) fun _ => by simp [Effect.toFields]

lemma suits_property {p : Property} (h : p.Avoids n)
    (htyped : F.typed = true → ¬ n.Continues (stringify p.type).toList) : F.Suits n p.toFields := by
  refine suits_of_texts h.fields ?_ fun ht => ?_
  · simpa [Property.toFields, stringify] using h.name.slash_notMem
  · simpa [Property.toFields] using htyped ht

lemma suits_function {f : Function} (h : f.Avoids n) : F.Suits n f.toFields := by
  refine suits_of_texts h.fields ?_ fun _ => by simp [Function.toFields]
  simpa [Function.toFields, stringify] using h.name.slash_notMem

lemma suits_import {i : Import} (h : i.Avoids n) : F.Suits n i.toFields := by
  refine suits_of_texts h.fields ?_ fun _ => by simp [Import.toFields]
  simpa [Import.toFields, stringify] using h.name

end Items

end Filling

end ViewWriter
