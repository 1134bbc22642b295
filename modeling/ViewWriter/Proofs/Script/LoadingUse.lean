import ViewWriter.Proofs.Script.LoadingBlock
import ViewWriter.Proofs.Script.UsedNames

/-! Regrouping the known components of a script whose imported names are all in use leaves them all
in use. -/

namespace ViewWriter.Script

open ViewWriter.Text

/-- Lines of a script in which nothing is imported for nothing. -/
structure AreTidy (preserve : List String) (ls : List (List Char)) : Prop where
  areLines : AreLines ls
  whole : ∀ l ∈ ls, isWhole l
  used : AllUsed preserve ls

section Restriction

variable {weights : Table WeightedImport} {preserve : List String} {ls : List (List Char)}
  {code : String} {used : String → Bool}

lemma areTidy_restrict (hls : AreLines ls) (hwhole : ∀ l ∈ ls, isWhole l)
    (hcode : code.toList = ls.flatten) :
    AreTidy preserve (ls.flatMap (restrictLine (keptNames preserve code).contains)) where
  areLines := areLines_restrict hls
  whole := by
    intro m hm
    obtain ⟨l, hl, hm⟩ := List.mem_flatMap.1 hm
    rcases restrictLine_cases hm with ⟨rfl, -⟩ | ⟨s, hs, hne, rfl, -, -⟩
    · exact hwhole m hl
    · exact Statement.isWhole_write hs hne
  used := allUsed_restrict hls hwhole hcode

lemma wrapperLine?_restrict (hnone : ∀ l ∈ ls, wrapperLine? weights l = none) :
    ∀ l ∈ ls.flatMap (restrictLine used), wrapperLine? weights l = none := by
  intro m hm
  obtain ⟨l, hl, hm⟩ := List.mem_flatMap.1 hm
  rcases restrictLine_cases hm with ⟨rfl, -⟩ | ⟨s, -, -, -, hs, -⟩
  · exact hnone m hl
  · exact wrapperLine?_of_statement (Option.isSome_iff_exists.2 ⟨_, hs⟩)

end Restriction

section Loading

variable {framework : Framework} {weights : Table WeightedImport} {preserve : List String}
  {ls front back : List (List Char)} {l indent : List Char} {i : WeightedImport}
  {imports : List WeightedImport} {threshold : Number}

lemma AreComponents.name_mem_locals (h : AreComponents weights)
    (hi : importLine? framework weights l = some i) :
    ∃ s, lineStatement? l = some s ∧ i.name ∈ s.clause.locals := by
  simp only [importLine?, Option.bind_eq_some_iff] at hi
  obtain ⟨s, hs, name, hname, hi⟩ := hi
  have hread := isRead_of_lineStatement? hs
  have hlocal := mem_locals_of_componentBinding? hname
  have hsame := (h.of_component? (isIdentifier_of_mem_locals hread.clause hlocal) hread.source_ne hi).2
  exact ⟨s, hs, hsame ▸ hlocal⟩

lemma lineStatement?_of_loading (hnone : wrapperLine? weights l = none)
    (hl : isLoadingLine framework weights l = true) : (lineStatement? l).isSome := by
  rw [isLoadingLine, Bool.or_eq_true] at hl
  rcases hl with hl | hl
  · rw [boundLine?, hnone, Option.or_none, importLine?] at hl
    cases hs : lineStatement? l with
    | none => simp [hs] at hl
    | some s => rfl
  · obtain ⟨s, hs, -⟩ := lineStatement?_of_primitive hl
    rw [hs]
    rfl

/-- Taking out what is loaded leaves the names in use where they are. -/
lemma IsReferenced.unloaded {first : List Char} {name : String}
    (h : IsReferenced (front ++ first :: back) name)
    (hnone : ∀ l ∈ front ++ first :: back, wrapperLine? weights l = none)
    (hfirst : isLoadingLine framework weights first = true) :
    IsReferenced (front ++ back.filter (!isLoadingLine framework weights ·)) name := by
  obtain ⟨l, hl, hs, hname⟩ := h
  have hkept : isLoadingLine framework weights l = false := by
    refine Bool.eq_false_iff.2 fun hloading => ?_
    have hsome := lineStatement?_of_loading (hnone l hl) hloading
    rw [hs] at hsome
    cases hsome
  refine ⟨l, ?_, hs, hname⟩
  rcases List.mem_append.1 hl with hl | hl
  · exact List.mem_append_left _ hl
  · rcases List.mem_cons.1 hl with rfl | hl
    · rw [hfirst] at hkept
      cases hkept
    · exact List.mem_append_right _ (List.mem_filter.2 ⟨hl, by rw [hkept]; rfl⟩)

lemma locals_eagerStatement : (eagerStatement framework indent i).reread.clause.locals = [i.name] := by
  cases framework <;> rfl

lemma mem_references_lazy {name : String} {front back : List Char}
    (hname : isIdentifier name.toList = true)
    (h : (lazyLine framework i).toList = front ++ ' ' :: (name.toList ++ '(' :: back)) :
    name ∈ references (blockLine indent (lazyLine framework i)) := by
  have hline : blockLine indent (lazyLine framework i) =
      (indent ++ front) ++ ' ' :: (name.toList ++ '(' :: (back ++ ['\n'])) := by
    simp [blockLine, h]
  have hmem : String.ofList name.toList ∈
      identifiers ((indent ++ front) ++ ' ' :: (name.toList ++ '(' :: (back ++ ['\n']))) :=
    mem_identifiers_word (by decide) hname (by decide)
  rw [references, hline, List.mem_append]
  exact .inl (by rwa [String.ofList_toList] at hmem)

lemma IsGrouped.allUsed (h : IsGrouped framework weights indent front imports back)
    (hweights : AreComponents weights) (hused : AllUsed preserve ls)
    (hreferenced : ∀ name, IsReferenced ls name → IsReferenced (front ++ back) name)
    (hsub : ∀ l ∈ front ++ back, l ∈ ls)
    (himports : ∀ i ∈ imports, ∃ l ∈ ls, importLine? framework weights l = some i) :
    AllUsed preserve (groupedLines framework threshold indent front imports back) := by
  have hkept : ∀ name, name ∈ preserve ∨ IsReferenced ls name → name ∈ preserve ∨
      IsReferenced (groupedLines framework threshold indent front imports back) name := by
    rintro name (hname | hname)
    · exact .inl hname
    · obtain ⟨m, hm, hs, hmem⟩ := hreferenced name hname
      refine .inr ⟨m, ?_, hs, hmem⟩
      rcases List.mem_append.1 hm with hm | hm <;> simp [groupedLines, hm]
  intro l hl s hs name hname
  rw [groupedLines, List.mem_append, List.mem_append, List.mem_append] at hl
  rcases hl with hl | (hl | hl) | hl
  · exact hkept name (hused l (hsub l (List.mem_append_left _ hl)) s hs name hname)
  · obtain ⟨⟨i, hi, hlazy⟩, text, htext, rfl⟩ := mem_primitiveLines.1 hl
    obtain ⟨t, ht, -, hcalls⟩ := lineStatement?_of_primitive (isPrimitiveLine_blockLine htext h.indent)
    obtain rfl := Option.some.inj (ht.symm.trans hs)
    have hwrapper : blockLine indent (lazyLine framework i) ∈
        groupedLines framework threshold indent front imports back := by
      have hload := List.mem_map_of_mem (f := loadLine framework threshold indent) hi
      rw [loadLine, hlazy] at hload
      rw [groupedLines, List.mem_append, List.mem_append, List.mem_append]
      exact .inr (.inl (.inr hload))
    obtain ⟨before, after, hcall⟩ := hcalls name hname i
    have hidentifier := isIdentifier_of_mem_locals (isRead_of_lineStatement? ht).clause hname
    exact .inr ⟨_, hwrapper, lineStatement?_lazy (h.known i hi).read h.indent,
      mem_references_lazy hidentifier hcall⟩
  · obtain ⟨i, hi, rfl⟩ := List.mem_map.1 hl
    rw [loadLine] at hs
    split_ifs at hs
    · rw [lineStatement?_eager (h.known i hi).read h.indent] at hs
      obtain rfl := Option.some.inj hs
      obtain ⟨m, hm, himport⟩ := himports i hi
      obtain ⟨u, hu, hmem⟩ := hweights.name_mem_locals himport
      rw [locals_eagerStatement, List.mem_singleton] at hname
      exact hkept name (hused m hm u hu name (hname ▸ hmem))
    · rw [lineStatement?_lazy (h.known i hi).read h.indent] at hs
      cases hs
  · exact hkept name (hused l (hsub l (List.mem_append_right _ hl)) s hs name hname)

lemma boundComponents_eq_nil_iff (hweights : AreComponents weights) :
    boundComponents framework weights ls = [] ↔ ∀ l ∈ ls, boundLine? framework weights l = none := by
  rw [List.eq_nil_iff_forall_not_mem]
  simp only [hweights.mem_boundComponents_iff, Option.eq_none_iff_forall_ne_some]
  exact ⟨fun h l hl i hi => h i ⟨l, hl, hi⟩, fun h i ⟨l, hl, hi⟩ => h l hl i hi⟩

/-- Lines that regrouping leaves as they are. -/
def IsRegrouped (framework : Framework) (threshold : Except Fault Number)
    (weights : Table WeightedImport) (ls : List (List Char)) : Prop :=
  (∀ l ∈ ls, boundLine? framework weights l = none) ∨
    ∃ n indent front imports back, threshold = .ok n ∧ imports ≠ [] ∧
      IsGrouped framework weights indent front imports back ∧
        ls = groupedLines framework n indent front imports back

lemma IsRegrouped.regroupLoading_eq {limit : Except Fault Number} {code : String}
    (h : IsRegrouped framework limit weights ls) (hweights : AreComponents weights)
    (htidy : AreTidy preserve ls) (hcode : code.toList = ls.flatten) :
    regroupLoading framework limit weights code = .ok code := by
  have hregroup := Script.regroupLoading_eq framework limit htidy.areLines htidy.whole
    hweights.notMem_source hcode
  rcases h with hnone | ⟨n, indent, front, imports, back, rfl, hne, hgrouped, rfl⟩
  · rw [hregroup, if_pos ((boundComponents_eq_nil_iff hweights).2 hnone)]
  · rw [hregroup, hgrouped.boundComponents_eq n, if_neg hne, Except.map, hgrouped.regroupedLines_eq hne,
      ← hcode, String.ofList_toList]

/-- Regrouping a tidy script without wrappers gives a tidy script that it leaves as it is. -/
lemma AreTidy.regroupLoading {limit : Except Fault Number} {code out : String}
    (htidy : AreTidy preserve ls) (hweights : AreComponents weights)
    (hnone : ∀ l ∈ ls, wrapperLine? weights l = none) (hcode : code.toList = ls.flatten)
    (hout : regroupLoading framework limit weights code = .ok out) :
    ∃ ms, out.toList = ms.flatten ∧ AreTidy preserve ms ∧ IsRegrouped framework limit weights ms := by
  have hregroup := Script.regroupLoading_eq framework limit htidy.areLines htidy.whole
    hweights.notMem_source hcode
  by_cases hcomponents : boundComponents framework weights ls = []
  · rw [if_pos hcomponents, hout] at hregroup
    obtain rfl := Except.ok.inj hregroup
    exact ⟨ls, hcode, htidy, .inl ((boundComponents_eq_nil_iff hweights).1 hcomponents)⟩
  · rw [if_neg hcomponents, hout] at hregroup
    cases limit with
    | error e => cases hregroup
    | ok n =>
      obtain rfl := Except.ok.inj hregroup
      obtain ⟨front, first, back, imports, rfl, hfirst, hne, hmem, hgrouped, hregrouped⟩ :=
        hweights.exists_grouped n hcomponents
      dsimp only
      rw [hregrouped, String.toList_ofList]
      have hsub : ∀ l ∈ front ++ back.filter (!isLoadingLine framework weights ·),
          l ∈ front ++ first :: back := by
        intro l hl
        rcases List.mem_append.1 hl with hl | hl
        · exact List.mem_append_left _ hl
        · exact List.mem_append_right _ (List.mem_cons_of_mem first (List.mem_filter.1 hl).1)
      have hreferenced : ∀ name, IsReferenced (front ++ first :: back) name →
          IsReferenced (front ++ back.filter (!isLoadingLine framework weights ·)) name :=
        fun name h => h.unloaded hnone hfirst
      have himports : ∀ i ∈ imports, ∃ l ∈ front ++ first :: back,
          importLine? framework weights l = some i := by
        intro i hi
        obtain ⟨l, hl, hbound⟩ := (hmem i).1 hi
        rcases boundLine?_eq_some_iff.1 hbound with himport | hwrapper
        · exact ⟨l, hl, himport⟩
        · rw [hnone l hl] at hwrapper
          cases hwrapper
      refine ⟨_, rfl, ⟨?_, ?_, ?_⟩, .inr ⟨n, _, front, imports, _, rfl, hne, hgrouped, rfl⟩⟩
      · exact hgrouped.areLines n (htidy.areLines.allBroken (List.cons_ne_nil first back))
          (htidy.areLines.right.tail.filter _)
      · exact hgrouped.whole_lines (fun l hl => htidy.whole l (hsub l (List.mem_append_left _ hl)))
          fun l hl => htidy.whole l (hsub l (List.mem_append_right _ hl))
      · exact hgrouped.allUsed hweights htidy.used hreferenced hsub himports

end Loading

end ViewWriter.Script
