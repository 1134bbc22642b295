import ViewWriter.Proofs.Script.Regrouping

/-! Regrouping puts the known components of a script into one block, and leaves such a script as it
is. -/

namespace ViewWriter.Script

open ViewWriter.Text

section Bound

variable {framework : Framework} {weights : Table WeightedImport} {threshold : Number}
  {ls : List (List Char)} {l : List Char} {i : WeightedImport}

lemma AreComponents.of_boundLine? (h : AreComponents weights)
    (hi : boundLine? framework weights l = some i) : IsKnown weights i := by
  rcases Option.or_eq_some_iff.1 hi with hi | ⟨-, hi⟩
  · exact h.of_importLine? hi
  · exact h.of_wrapperLine? hi

lemma boundLine?_eq_some_iff : boundLine? framework weights l = some i ↔
    importLine? framework weights l = some i ∨ wrapperLine? weights l = some i := by
  rw [boundLine?, Option.or_eq_some_iff]
  refine ⟨fun h => h.imp_right And.right, fun h => h.imp_right fun hi => ⟨?_, hi⟩⟩
  refine Option.eq_none_iff_forall_ne_some.2 fun j hj => ?_
  rw [wrapperLine?_of_import (Option.isSome_iff_exists.2 ⟨j, hj⟩)] at hi
  cases hi

lemma AreComponents.mem_boundComponents_iff (h : AreComponents weights) :
    i ∈ boundComponents framework weights ls ↔ ∃ l ∈ ls, boundLine? framework weights l = some i := by
  have hmem : ∀ {j}, j ∈ ls.filterMap (importLine? framework weights) ++
      ls.filterMap (wrapperLine? weights) ↔ ∃ l ∈ ls, boundLine? framework weights l = some j := by
    intro j
    simp only [List.mem_append, List.mem_filterMap, boundLine?_eq_some_iff, and_or_left, exists_or]
  rw [boundComponents, mem_distinct_iff, hmem]
  intro j hj k hk hname
  obtain ⟨_, -, hj⟩ := hmem.1 hj
  obtain ⟨_, -, hk⟩ := hmem.1 hk
  exact (h.of_boundLine? hj).eq_of_name (h.of_boundLine? hk) hname

lemma AreComponents.notMem_source (h : AreComponents weights) :
    ∀ e ∈ weights, '\n' ∉ e.2.source.toList :=
  fun e he hmem => (h.source e he _ hmem).2 rfl

/-- Where components are bound, there is a first line to put their block at. -/
lemma AreComponents.exists_grouped (h : AreComponents weights) (threshold : Number)
    (hne : boundComponents framework weights ls ≠ []) :
    ∃ front first back imports, ls = front ++ first :: back ∧
      isLoadingLine framework weights first = true ∧ imports ≠ [] ∧
      (∀ i, i ∈ imports ↔ ∃ l ∈ ls, boundLine? framework weights l = some i) ∧
      IsGrouped framework weights (first.takeWhile isMargin) front imports
        (back.filter (!isLoadingLine framework weights ·)) ∧
      regroupedLines framework threshold weights ls =
        groupedLines framework threshold (first.takeWhile isMargin) front imports
          (back.filter (!isLoadingLine framework weights ·)) := by
  have hsplit := List.takeWhile_append_dropWhile (p := (!isLoadingLine framework weights ·)) (l := ls)
  have hperm := List.mergeSort_perm (boundComponents framework weights ls)
    fun a b : WeightedImport => b.weight.le a.weight
  have hknown : ∀ i ∈ boundComponents framework weights ls, IsKnown weights i := fun i hi => by
    obtain ⟨_, -, hl⟩ := h.mem_boundComponents_iff.1 hi
    exact h.of_boundLine? hl
  have hfront : ∀ l ∈ ls.takeWhile (!isLoadingLine framework weights ·),
      isLoadingLine framework weights l = false := fun l hl => by
    simpa using List.mem_takeWhile_imp hl
  cases hdrop : ls.dropWhile (!isLoadingLine framework weights ·) with
  | nil =>
    obtain ⟨i, hi⟩ := List.exists_mem_of_ne_nil _ hne
    obtain ⟨l, hl, hbound⟩ := h.mem_boundComponents_iff.1 hi
    have hnot := List.dropWhile_eq_nil_iff.1 hdrop l hl
    simp [isLoadingLine, hbound] at hnot
  | cons first back =>
    rw [hdrop] at hsplit
    have hfirst : isLoadingLine framework weights first = true := by
      have hhead := List.head?_dropWhile_not (!isLoadingLine framework weights ·) ls
      rw [hdrop] at hhead
      simpa using hhead
    refine ⟨_, first, back, WeightedImport.ordered (boundComponents framework weights ls),
      hsplit.symm, hfirst, fun hnil => hne ?_, fun i => ?_, ?_, ?_⟩
    · exact List.nil_perm.1 (hnil ▸ hperm)
    · exact hperm.mem_iff.trans h.mem_boundComponents_iff
    · exact
        { indent := fun c hc => List.mem_takeWhile_imp hc
          front := hfront
          known := fun i hi => hknown i (hperm.mem_iff.1 hi)
          nodup := (hperm.map (·.name)).nodup_iff.2 (nodup_distinct _)
          sorted := pairwise_ordered fun i hi => (hknown i hi).weight
          back := fun l hl => by simpa using (List.mem_filter.1 hl).2 }
    · rw [regroupedLines_split hsplit.symm hfront hfirst, map_blockLines, groupedLines]

lemma IsGrouped.areLines {indent : List Char} {front back : List (List Char)}
    {imports : List WeightedImport} (h : IsGrouped framework weights indent front imports back)
    (threshold : Number) (hfront : AllBroken front) (hback : AreLines back) :
    AreLines (groupedLines framework threshold indent front imports back) :=
  hfront.append_areLines (AllBroken.append_areLines (fun _ hl => (h.isBlockLine hl).broken) hback)

lemma IsGrouped.whole_lines {indent : List Char} {front back : List (List Char)}
    {imports : List WeightedImport} (h : IsGrouped framework weights indent front imports back)
    (hfront : ∀ l ∈ front, isWhole l) (hback : ∀ l ∈ back, isWhole l) :
    ∀ l ∈ groupedLines framework threshold indent front imports back, isWhole l := by
  intro l hl
  rw [groupedLines, List.mem_append, List.mem_append] at hl
  rcases hl with hl | hl | hl
  · exact hfront l hl
  · exact (h.isBlockLine hl).whole
  · exact hback l hl

lemma IsGrouped.regroup_self {indent : List Char} {front back : List (List Char)}
    {imports : List WeightedImport} (h : IsGrouped framework weights indent front imports back)
    (hweights : AreComponents weights) (hne : imports ≠ [])
    (hlines : AreLines (groupedLines framework threshold indent front imports back))
    (hwhole : ∀ l ∈ groupedLines framework threshold indent front imports back, isWhole l) :
    regroupLoading framework (.ok threshold) weights
        (String.ofList (groupedLines framework threshold indent front imports back).flatten) =
      .ok (String.ofList (groupedLines framework threshold indent front imports back).flatten) := by
  rw [regroupLoading_eq framework (.ok threshold) hlines hwhole hweights.notMem_source
    String.toList_ofList, h.boundComponents_eq threshold, if_neg hne]
  rw [Except.map, h.regroupedLines_eq hne]

end Bound

/-- Regrouping binds every component that a script binds once, in one block by descending weight in
the place of the first line that it takes out, and leaves its own results as they are. -/
theorem regroupLoading_once (framework : Framework) (threshold : Number)
    {weights : Table WeightedImport} {code : String} (hweights : AreComponents weights)
    (hwhole : ∀ l ∈ codeLines code.toList, isWhole l) :
    ∃ out, regroupLoading framework (.ok threshold) weights code = .ok out ∧
      regroupLoading framework (.ok threshold) weights out = .ok out ∧
      ((∀ l ∈ codeLines code.toList, boundLine? framework weights l = none) → out = code) ∧
      ((∃ l ∈ codeLines code.toList, (boundLine? framework weights l).isSome) →
        ∃ front first back imports,
          codeLines code.toList = front ++ first :: back ∧
          (∀ l ∈ front, isLoadingLine framework weights l = false) ∧
          isLoadingLine framework weights first = true ∧
          codeLines out.toList = front ++
            (primitiveLines framework threshold (first.takeWhile isMargin) imports ++
              imports.map (loadLine framework threshold (first.takeWhile isMargin)) ++
                back.filter (!isLoadingLine framework weights ·)) ∧
          imports.Pairwise (fun a b => b.weight.le a.weight) ∧
          (imports.map (·.name)).Nodup ∧
          (∀ i, i ∈ imports ↔
            ∃ l ∈ codeLines code.toList, boundLine? framework weights l = some i) ∧
          (codeLines out.toList).filterMap (boundLine? framework weights) = imports ∧
          ∀ i ∈ imports,
            let l := loadLine framework threshold (first.takeWhile isMargin) i
            if i.isEager threshold then importLine? framework weights l = some i
            else wrapperLine? weights l = some i) := by
  have hlines := areLines_codeLines code.toList
  have hregroup := regroupLoading_eq framework (.ok threshold) hlines hwhole
    hweights.notMem_source (flatten_codeLines code.toList).symm
  by_cases hnone : boundComponents framework weights (codeLines code.toList) = []
  · rw [if_pos hnone] at hregroup
    refine ⟨code, hregroup, hregroup, fun _ => rfl, fun ⟨l, hl, hbound⟩ => ?_⟩
    obtain ⟨i, hi⟩ := Option.isSome_iff_exists.1 hbound
    have hmem := hweights.mem_boundComponents_iff.2 ⟨l, hl, hi⟩
    rw [hnone] at hmem
    cases hmem
  · obtain ⟨front, first, back, imports, hsplit, hfirst, hne, hmem, hgrouped, hregrouped⟩ :=
      hweights.exists_grouped threshold hnone
    rw [if_neg hnone, Except.map, hregrouped] at hregroup
    rw [hsplit] at hlines
    have hout := hgrouped.areLines threshold
      (hlines.allBroken (List.cons_ne_nil first back)) (hlines.right.tail.filter _)
    have hself := hgrouped.regroup_self hweights hne hout <| hgrouped.whole_lines
      (fun l hl => hwhole l (by simp [hsplit, hl]))
      fun l hl => hwhole l (by simp [hsplit, (List.mem_filter.1 hl).1])
    have hcode := hout.codeLines_flatten
    rw [← String.toList_ofList (l := List.flatten _)] at hcode
    refine ⟨_, hregroup, hself, fun hno => ?_, fun _ => ⟨front, first, back, imports, hsplit,
      hgrouped.front, hfirst, hcode, hgrouped.sorted, hgrouped.nodup, hmem, ?_, ?_⟩⟩
    · obtain ⟨i, hi⟩ := List.exists_mem_of_ne_nil _ hne
      obtain ⟨l, hl, hbound⟩ := (hmem i).1 hi
      rw [hno l hl] at hbound
      cases hbound
    · rw [hcode, hgrouped.filterMap_boundLine?]
    · intro i hi
      dsimp only
      rw [importLine?_loadLine (hgrouped.known i hi) hgrouped.indent,
        wrapperLine?_loadLine (hgrouped.known i hi) hgrouped.indent]
      split_ifs <;> rfl

/-- A heavy component and a light one. -/
theorem regroupLoading_two_weights :
    let weights : Table WeightedImport :=
      [("Card", ⟨"Card", "./Card", .int 1⟩), ("Chart", ⟨"Chart", "./Chart", .int 0⟩)]
    let code := "import Chart from './Chart';\nimport Card from './Card';\nshow(Card, Chart);\n"
    (∀ l ∈ codeLines code.toList, isWhole l) ∧
      ∃ out imports, regroupLoading .react (.ok (.int 0)) weights code = .ok out ∧
        regroupLoading .react (.ok (.int 0)) weights out = .ok out ∧
        (codeLines out.toList).filterMap (boundLine? .react weights) = imports ∧ imports ≠ [] := by
  intro weights code
  have hsources : ∀ e ∈ weights, e.2.source.toList.all (fun c => !isQuote c && c != '\n') := by
    decide
  have hweights : AreComponents weights :=
    { name := by decide
      made := by decide +kernel
      source := fun e he c hc => by simpa using List.all_eq_true.1 (hsources e he) c hc }
  have hwhole : ∀ l ∈ codeLines code.toList, isWhole l := by decide +kernel
  have hbound : ∃ l ∈ codeLines code.toList, (boundLine? .react weights l).isSome := by
    decide +kernel
  obtain ⟨out, hout, hself, -, hblock⟩ :=
    regroupLoading_once .react (.int 0) hweights hwhole
  obtain ⟨_, _, _, imports, -, -, -, -, -, -, hmem, hfound, -⟩ := hblock hbound
  refine ⟨hwhole, out, imports, hout, hself, hfound, ?_⟩
  rintro rfl
  obtain ⟨l, hl, hsome⟩ := hbound
  obtain ⟨i, hi⟩ := Option.isSome_iff_exists.1 hsome
  cases (hmem i).2 ⟨l, hl, hi⟩

end ViewWriter.Script
