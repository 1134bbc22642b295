import Mathlib.Data.List.Basic
import Mathlib.Tactic.Lemma
import ViewWriter.Markup.Dialect
import ViewWriter.Proofs.Text.Replacing
import ViewWriter.Text.Markup
import ViewWriter.Text.Split

/-! Escaped texts. Special characters are replaced one after the other in the whole text, and what comes of
that reads back as the text and has none of those characters. -/

namespace ViewWriter.Markup

open ViewWriter.Text

def references : List (List Char × Char) := [
  ("&amp;".toList, '&'), ("&lt;".toList, '<'), ("&gt;".toList, '>'), ("&quot;".toList, '"'),
  ("&#x27;".toList, '\''), ("&#123;".toList, '\x7b'), ("&#125;".toList, '\x7d')]

/-- The reference at the start of a text, and what follows it. -/
def referenceAt? (cs : List Char) : Option (Char × List Char) :=
  references.findSome? fun r => (stripPrefix? r.1 cs).map (r.2, ·)

lemma referenceAt?_length {cs rest : List Char} {c : Char} (h : referenceAt? cs = some (c, rest)) :
    rest.length < cs.length := by
  obtain ⟨r, hr, hstrip⟩ := List.exists_of_findSome?_eq_some h
  obtain ⟨after, hafter, heq⟩ := Option.map_eq_some_iff.1 hstrip
  obtain rfl := (Prod.mk.inj heq).2
  have hlength := stripPrefix?_length hafter
  have hpos : ∀ r ∈ references, 0 < r.1.length := by decide
  have := hpos r hr
  omega

/-- A text with every reference replaced by its character, from left to right. -/
def decode (cs : List Char) : List Char :=
  match cs with
  | [] => []
  | c :: rest =>
    match _h : referenceAt? (c :: rest) with
    | some (d, after) => d :: decode after
    | none => c :: decode rest
  termination_by cs.length
  decreasing_by
    · exact referenceAt?_length _h
    · simp

/-- Every character stands for itself or is written as a reference. -/
def Escapes (f : Char → List Char) : Prop :=
  ∀ c, f c = [c] ∧ c ≠ '&' ∨ (f c, c) ∈ references

section Decoding

variable {f : Char → List Char}

lemma referenceAt?_append {cs : List Char} {c : Char} (h : (cs, c) ∈ references)
    (rest : List Char) : referenceAt? (cs ++ rest) = some (c, rest) := by
  simp only [references, List.mem_cons, List.not_mem_nil, or_false, Prod.mk.injEq] at h
  rcases h with ⟨rfl, rfl⟩ | ⟨rfl, rfl⟩ | ⟨rfl, rfl⟩ | ⟨rfl, rfl⟩ | ⟨rfl, rfl⟩ | ⟨rfl, rfl⟩ |
    ⟨rfl, rfl⟩ <;> rfl

lemma referenceAt?_of_ne {c : Char} (h : c ≠ '&') (rest : List Char) :
    referenceAt? (c :: rest) = none := by
  rw [referenceAt?, List.findSome?_eq_none_iff]
  intro r hr
  have hhead : ∀ r ∈ references, r.1.head? = some '&' := by decide
  obtain ⟨as, has⟩ := List.head?_eq_some_iff.1 (hhead r hr)
  rw [has, stripPrefix?, if_neg (Ne.symm h)]
  rfl

lemma decode_append (h : Escapes f) (c : Char) (rest : List Char) :
    decode (f c ++ rest) = c :: decode rest := by
  rcases h c with ⟨hc, hne⟩ | hmem
  · rw [hc, List.singleton_append, decode, referenceAt?_of_ne hne]
  · have hread := referenceAt?_append hmem rest
    rcases hcs : f c ++ rest with _ | ⟨d, ds⟩
    · rw [hcs] at hread
      cases referenceAt?_length hread
    · rw [hcs] at hread
      rw [decode, hread]

lemma decode_flatMap (h : Escapes f) (cs : List Char) : decode (cs.flatMap f) = cs := by
  induction cs with
  | nil => rw [List.flatMap_nil, decode]
  | cons c cs ih => rw [List.flatMap_cons, decode_append h, ih]

end Decoding

/-! Tables of replacements, in the order in which they are made. -/

def contentTable : List (Char × List Char) :=
  [('&', "&amp;".toList), ('<', "&lt;".toList), ('>', "&gt;".toList)]

def attributeTable : List (Char × List Char) := contentTable ++ [('"', "&quot;".toList)]

def quotedTable : List (Char × List Char) := attributeTable ++ [('\'', "&#x27;".toList)]

def bracedTable : List (Char × List Char) :=
  contentTable ++ [('\x7b', "&#123;".toList)] ++ [('\x7d', "&#125;".toList)]

/-- The replacements of a table turn `s` into `written`, which reads back as `s` and has none of the
characters in `live`. -/
structure Encodes (table : List (Char × List Char)) (live : String) (s written : String) : Prop where
  inTurn : written.toList = replaceInTurn (table.map fun e => ([e.1], e.2)) s.toList
  decoded : decode written.toList = s.toList
  absent : ∀ c ∈ live.toList, c ∉ written.toList

section Tables

/-- A table by which references are written, so that none of them is taken apart by a later one. -/
structure WritesReferences (table : List (Char × List Char)) : Prop where
  inTurn : table.Pairwise fun first later => later.1 ∉ first.2
  known : ∀ e ∈ table, (e.2, e.1) ∈ references
  ampersand : '&' ∈ table.map Prod.fst

variable {table : List (Char × List Char)} {live : String}

lemma WritesReferences.escapes (h : WritesReferences table) : Escapes (inPlaceOf table) := by
  intro c
  rcases inPlaceOf_cases table c with ⟨hkept, hnot⟩ | hmem
  · refine .inl ⟨hkept, ?_⟩
    rintro rfl
    exact hnot h.ampersand
  · exact .inr (h.known _ hmem)

lemma notMem_inPlaceOf {c : Char} (hkey : c ∈ table.map Prod.fst) (hnew : ∀ e ∈ table, c ∉ e.2)
    (d : Char) : c ∉ inPlaceOf table d := by
  rcases inPlaceOf_cases table d with ⟨hkept, hnot⟩ | hmem
  · rw [hkept, List.mem_singleton]
    rintro rfl
    exact hnot hkey
  · exact hnew _ hmem

lemma WritesReferences.encodes (h : WritesReferences table)
    (hlive : live.toList ⊆ table.map Prod.fst) (hnew : ∀ e ∈ table, e.2.all (· ∉ live.toList))
    (s : String) : Encodes table live s (mapChars (inPlaceOf table) s) where
  inTurn := by rw [mapChars, String.toList_ofList, replaceInTurn_table h.inTurn]
  decoded := by rw [mapChars, String.toList_ofList, decode_flatMap h.escapes]
  absent c hc hm := by
    rw [mapChars, String.toList_ofList] at hm
    obtain ⟨d, -, hd⟩ := List.mem_flatMap.1 hm
    have hunwritten : ∀ e ∈ table, c ∉ e.2 := fun e he hce =>
      of_decide_eq_true (List.all_eq_true.1 (hnew e he) c hce) hc
    exact notMem_inPlaceOf (hlive hc) hunwritten d hd

end Tables

section Entities

lemma contentEntity_eq : contentEntity = inPlaceOf contentTable := by
  funext c
  unfold contentEntity
  split
  · rfl
  · rfl
  · rfl
  · rename_i hamp hlt hgt
    have hnot : c ∉ contentTable.map Prod.fst := by
      simp only [contentTable, List.map_cons, List.map_nil, List.mem_cons, List.not_mem_nil, or_false,
        not_or]
      exact ⟨hamp, hlt, hgt⟩
    exact (inPlaceOf_of_notMem hnot).symm

lemma attributeEntity_eq : attributeEntity = inPlaceOf attributeTable := by
  funext c
  unfold attributeEntity
  split
  · rfl
  · rename_i hquote
    rw [attributeTable, inPlaceOf_concat _ _ hquote, contentEntity_eq]

lemma quotedEntity_eq : quotedEntity = inPlaceOf quotedTable := by
  funext c
  unfold quotedEntity
  split
  · rfl
  · rename_i hquote
    rw [quotedTable, inPlaceOf_concat _ _ hquote, attributeEntity_eq]

lemma bracedEntity_eq : bracedEntity = inPlaceOf bracedTable := by
  funext c
  unfold bracedEntity
  split
  · rfl
  · rfl
  · rename_i hopen hclose
    rw [bracedTable, inPlaceOf_concat _ _ hclose, inPlaceOf_concat _ _ hopen, contentEntity_eq]

lemma writesReferences_content : WritesReferences contentTable :=
  ⟨by decide, by decide, by decide⟩

lemma writesReferences_attribute : WritesReferences attributeTable :=
  ⟨by decide, by decide, by decide⟩

lemma writesReferences_quoted : WritesReferences quotedTable :=
  ⟨by decide, by decide, by decide⟩

lemma writesReferences_braced : WritesReferences bracedTable :=
  ⟨by decide, by decide, by decide⟩

lemma escapes_content : Escapes contentEntity :=
  contentEntity_eq ▸ writesReferences_content.escapes

lemma escapes_quoted : Escapes quotedEntity :=
  quotedEntity_eq ▸ writesReferences_quoted.escapes

lemma escapes_braced : Escapes bracedEntity :=
  bracedEntity_eq ▸ writesReferences_braced.escapes

lemma lt_notMem_contentEntity (c : Char) : '<' ∉ contentEntity c := by
  rw [contentEntity_eq]
  exact notMem_inPlaceOf (by decide) (by decide) c

lemma lt_notMem_bracedEntity (c : Char) : '<' ∉ bracedEntity c := by
  rw [bracedEntity_eq]
  exact notMem_inPlaceOf (by decide) (by decide) c

lemma quote_notMem_quotedEntity (c : Char) : '"' ∉ quotedEntity c := by
  rw [quotedEntity_eq]
  exact notMem_inPlaceOf (by decide) (by decide) c

end Entities

/-- Escaping loses nothing and leaves no live character: text content with or without its braces,
expressions in attributes, and what stands between the quotes of an attribute of any dialect. -/
theorem escaping_reads_back (s : String) :
    Encodes contentTable "<>" s (escapeContent s) ∧
      Encodes bracedTable "<>\x7b\x7d" s (escapeBraced s) ∧
      Encodes attributeTable "\"<>" s (escapeAttribute s) ∧
      ∀ (d : Dialect) (name : String), ∃ written,
        d.staticAttribute name s = d.attributeName name ++ "=\"" ++ written ++ "\"" ∧
        Encodes quotedTable "\"'<>" s written := by
  refine ⟨?_, ?_, ?_, fun d name => ⟨escapeQuoted s, rfl, ?_⟩⟩
  · rw [escapeContent, contentEntity_eq]
    exact writesReferences_content.encodes (by decide) (by decide) s
  · rw [escapeBraced, bracedEntity_eq]
    exact writesReferences_braced.encodes (by decide) (by decide) s
  · rw [escapeAttribute, attributeEntity_eq]
    exact writesReferences_attribute.encodes (by decide) (by decide) s
  · rw [escapeQuoted, quotedEntity_eq]
    exact writesReferences_quoted.encodes (by decide) (by decide) s

end ViewWriter.Markup
