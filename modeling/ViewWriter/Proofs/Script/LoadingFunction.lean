import ViewWriter.Proofs.Script.LoadingUse

/-! When regrouping leaves the function that loads components later bound once, as its calls need
it. -/

namespace ViewWriter.Script

open ViewWriter.Text

/-- Whether a line imports a name under which a module exports something. -/
def importsName (name source : String) (l : List Char) : Bool :=
  (lineStatement? l).any fun s =>
    s.source == source && !s.clause.typeOnly && decide (⟨name, name, false⟩ ∈ s.clause.named)

/-- A line that calls a function by its name. -/
structure CallsName (name : String) (l : List Char) : Prop where
  statement : lineStatement? l = none
  call : ∃ front back, l = front ++ (name.toList ++ '(' :: back) ∧
    ∀ c ∈ front.getLast?, isIdentifierPart c = false ∧ c ≠ '.'

/-- Lines with one import of a name at most, and with one where the name is called. -/
structure BindsOnce (name source : String) (ls : List (List Char)) : Prop where
  least : ls.countP (importsName name source) ≤ 1
  called : (∃ l ∈ ls, CallsName name l) → ls.countP (importsName name source) = 1

/-- The lines that regrouping leaves in place. -/
def keptLines (framework : Framework) (weights : Table WeightedImport) (ls : List (List Char)) :
    List (List Char) :=
  ls.filter (!isLoadingLine framework weights ·)

/-- Among the known components that lines bind is one that is loaded later. -/
def BindsLazy (framework : Framework) (threshold : Number) (weights : Table WeightedImport)
    (ls : List (List Char)) : Prop :=
  ∃ l ∈ ls, ∃ i, boundLine? framework weights l = some i ∧ i.isEager threshold = false

section Lines

variable {framework : Framework} {weights : Table WeightedImport} {threshold : Number}
  {name source : String} {ls front back : List (List Char)} {l indent : List Char}
  {imports : List WeightedImport} {i : WeightedImport}

lemma importsName_primitive (hfunction : loadingFunction? framework = some (name, source))
    (h : isPrimitiveLine framework l) : importsName name source l = true := by
  obtain ⟨name', source', margin, hfunction', hs, -, -⟩ := lineStatement?_primitive h
  obtain ⟨rfl, rfl⟩ := Prod.mk.inj (Option.some.inj (hfunction.symm.trans hfunction'))
  rw [importsName, hs]
  simp [primitiveStatement, Statement.reread]

/-- Where a framework has a function that loads components later, components are imported as what
their modules export by default. -/
lemma importsName_loadLine (hfunction : loadingFunction? framework = some (name, source))
    (hi : IsKnown weights i) (hindent : ∀ c ∈ indent, isMargin c) :
    importsName name source (loadLine framework threshold indent i) = false := by
  rw [importsName, loadLine]
  split_ifs
  · rw [lineStatement?_eager hi.read hindent]
    cases framework with
    | react => simp [eagerStatement, Statement.reread]
    | vue => simp [eagerStatement, Statement.reread]
    | angular => cases hfunction
    | html => cases hfunction
  · rw [lineStatement?_lazy hi.read hindent]
    rfl

lemma primitive?_of_loadingFunction (hfunction : loadingFunction? framework = some (name, source)) :
    ∃ text, primitive? framework = some text := by
  cases framework with
  | react => exact ⟨_, rfl⟩
  | vue => exact ⟨_, rfl⟩
  | angular => cases hfunction
  | html => cases hfunction

lemma callsName_of_space {before after : List Char} (hstatement : lineStatement? l = none)
    (h : l = before ++ ' ' :: (name.toList ++ '(' :: after)) : CallsName name l := by
  refine ⟨hstatement, before ++ [' '], after, by simp [h], fun c hc => ?_⟩
  rw [List.getLast?_concat, Option.mem_some_iff] at hc
  subst hc
  decide

lemma callsName_lazy (hfunction : loadingFunction? framework = some (name, source))
    (hi : IsKnown weights i) (hindent : ∀ c ∈ indent, isMargin c) :
    CallsName name (blockLine indent (lazyLine framework i)) := by
  obtain ⟨text, htext⟩ := primitive?_of_loadingFunction hfunction
  obtain ⟨name', source', _, hfunction', -, -, hcalls⟩ :=
    lineStatement?_primitive (isPrimitiveLine_blockLine htext hindent)
  obtain ⟨rfl, rfl⟩ := Prod.mk.inj (Option.some.inj (hfunction.symm.trans hfunction'))
  obtain ⟨before, after, hline⟩ := hcalls i
  apply callsName_of_space (lineStatement?_lazy hi.read hindent)
  · rw [blockLine, hline]
    simp only [List.append_assoc, List.cons_append]
    rw [← List.append_assoc indent before]

lemma IsGrouped.countP_importsName (h : IsGrouped framework weights indent front imports back)
    (threshold : Number) (hfunction : loadingFunction? framework = some (name, source)) :
    (groupedLines framework threshold indent front imports back).countP (importsName name source) =
      (front ++ back).countP (importsName name source) +
        if imports.all (·.isEager threshold) then 0 else 1 := by
  have hloads : (imports.map (loadLine framework threshold indent)).countP
      (importsName name source) = 0 := by
    refine List.countP_eq_zero.2 fun l hl => ?_
    obtain ⟨i, hi, rfl⟩ := List.mem_map.1 hl
    simp [importsName_loadLine hfunction (h.known i hi) h.indent]
  have hprimitive : (primitiveLines framework threshold indent imports).countP
      (importsName name source) = if imports.all (·.isEager threshold) then 0 else 1 := by
    obtain ⟨text, htext⟩ := primitive?_of_loadingFunction hfunction
    rw [primitiveLines]
    split_ifs
    · rfl
    · simp [htext, importsName_primitive hfunction (isPrimitiveLine_blockLine htext h.indent)]
  rw [groupedLines, List.countP_append, List.countP_append, List.countP_append, List.countP_append,
    hloads, hprimitive]
  omega

lemma IsGrouped.exists_call_iff (h : IsGrouped framework weights indent front imports back)
    (threshold : Number) (hfunction : loadingFunction? framework = some (name, source)) :
    (∃ l ∈ groupedLines framework threshold indent front imports back, CallsName name l) ↔
      (∃ l ∈ front ++ back, CallsName name l) ∨ ∃ i ∈ imports, i.isEager threshold = false := by
  constructor
  · rintro ⟨l, hl, hcall⟩
    rw [groupedLines, List.mem_append, List.mem_append, List.mem_append] at hl
    rcases hl with hl | (hl | hl) | hl
    · exact .inl ⟨l, List.mem_append_left _ hl, hcall⟩
    · exact .inr (mem_primitiveLines.1 hl).1
    · obtain ⟨i, hi, rfl⟩ := List.mem_map.1 hl
      refine .inr ⟨i, hi, Bool.eq_false_iff.2 fun heager => ?_⟩
      have hstatement := hcall.statement
      rw [loadLine, if_pos heager, lineStatement?_eager (h.known i hi).read h.indent] at hstatement
      cases hstatement
    · exact .inl ⟨l, List.mem_append_right _ hl, hcall⟩
  · rintro (⟨l, hl, hcall⟩ | ⟨i, hi, hlazy⟩)
    · refine ⟨l, ?_, hcall⟩
      rcases List.mem_append.1 hl with hl | hl <;> simp [groupedLines, hl]
    · have hload := List.mem_map_of_mem (f := loadLine framework threshold indent) hi
      rw [loadLine, hlazy] at hload
      refine ⟨_, ?_, callsName_lazy hfunction (h.known i hi) h.indent⟩
      rw [groupedLines, List.mem_append, List.mem_append, List.mem_append]
      exact .inr (.inl (.inr hload))

lemma keptLines_split {first : List Char} (back : List (List Char))
    (hfront : ∀ l ∈ front, isLoadingLine framework weights l = false)
    (hfirst : isLoadingLine framework weights first = true) :
    keptLines framework weights (front ++ first :: back) =
      front ++ back.filter (!isLoadingLine framework weights ·) := by
  rw [keptLines, List.filter_append, List.filter_eq_self.2 fun l hl => by simp [hfront l hl],
    List.filter_cons_of_neg (by simp [hfirst])]

/-- Counting what regrouping keeps and what it adds. -/
lemma IsGrouped.bindsOnce_iff (h : IsGrouped framework weights indent front imports back)
    (threshold : Number) (hfunction : loadingFunction? framework = some (name, source))
    (honce : (front ++ back).countP (importsName name source) ≤ 1) :
    BindsOnce name source (groupedLines framework threshold indent front imports back) ↔
      ¬ ((∃ l ∈ front ++ back, importsName name source l) ∧
          ∃ i ∈ imports, i.isEager threshold = false) ∧
        ((∃ l ∈ front ++ back, CallsName name l) →
          (∃ l ∈ front ++ back, importsName name source l) ∨
            ∃ i ∈ imports, i.isEager threshold = false) := by
  have hkept : (∃ l ∈ front ++ back, importsName name source l) ↔
      0 < (front ++ back).countP (importsName name source) := List.countP_pos_iff.symm
  have hcount := h.countP_importsName threshold hfunction
  have hcalls := h.exists_call_iff threshold hfunction
  by_cases hlazy : ∃ i ∈ imports, i.isEager threshold = false
  · have hall : ¬ imports.all (·.isEager threshold) = true := by simpa using hlazy
    rw [if_neg hall] at hcount
    have hone : BindsOnce name source (groupedLines framework threshold indent front imports back) ↔
        (front ++ back).countP (importsName name source) = 0 := by
      refine ⟨fun hbinds => ?_, fun hzero => ⟨?_, fun _ => ?_⟩⟩
      · have hleast := hbinds.least
        omega
      · omega
      · omega
    rw [hone, hkept]
    simp only [hlazy, and_true, or_true, implies_true]
    omega
  · have hall : imports.all (·.isEager threshold) = true := by simpa using hlazy
    rw [if_pos hall, Nat.add_zero] at hcount
    simp only [hlazy, or_false] at hcalls
    simp only [hlazy, and_false, not_false_eq_true, or_false, true_and]
    refine ⟨fun hbinds hcall => ?_, fun hneeded => ⟨hcount ▸ honce, fun hcall => ?_⟩⟩
    · have hone := hbinds.called (hcalls.2 hcall)
      rw [hkept]
      omega
    · have hpos := hneeded (hcalls.1 hcall)
      rw [hkept] at hpos
      omega

end Lines

/-- Regrouping keeps the function that loads components later bound once where it is called, except
that it takes its import from the calls that it leaves in place when no known component is loaded
later, and that it adds a second import to one that is written in another way. -/
theorem regroupLoading_bindsOnce {framework : Framework} {name source : String}
    (hfunction : loadingFunction? framework = some (name, source)) (threshold : Number)
    {weights : Table WeightedImport} {code : String} (hweights : AreComponents weights)
    (hwhole : ∀ l ∈ codeLines code.toList, isWhole l)
    (hbinds : BindsOnce name source (codeLines code.toList)) :
    ∃ out, regroupLoading framework (.ok threshold) weights code = .ok out ∧
      (BindsOnce name source (codeLines out.toList) ↔
        (∀ l ∈ codeLines code.toList, boundLine? framework weights l = none) ∨
          let kept := keptLines framework weights (codeLines code.toList)
          let isLazy := BindsLazy framework threshold weights (codeLines code.toList)
          ¬ ((∃ l ∈ kept, importsName name source l) ∧ isLazy) ∧
            ((∃ l ∈ kept, CallsName name l) → (∃ l ∈ kept, importsName name source l) ∨ isLazy)) := by
  have hlines := areLines_codeLines code.toList
  have hregroup := regroupLoading_eq framework (.ok threshold) hlines hwhole
    hweights.notMem_source (flatten_codeLines code.toList).symm
  by_cases hnone : boundComponents framework weights (codeLines code.toList) = []
  · rw [if_pos hnone] at hregroup
    exact ⟨code, hregroup, iff_of_true hbinds (.inl ((boundComponents_eq_nil_iff hweights).1 hnone))⟩
  · obtain ⟨front, first, back, imports, hsplit, hfirst, hne, hmem, hgrouped, hregrouped⟩ :=
      hweights.exists_grouped threshold hnone
    rw [if_neg hnone, Except.map, hregrouped] at hregroup
    have hkept := keptLines_split back hgrouped.front hfirst
    have honce : (front ++ back.filter (!isLoadingLine framework weights ·)).countP
        (importsName name source) ≤ 1 := by
      rw [← hkept, ← hsplit]
      exact List.filter_sublist.countP_le.trans hbinds.least
    have hlazy : BindsLazy framework threshold weights (codeLines code.toList) ↔
        ∃ i ∈ imports, i.isEager threshold = false := by
      simp only [BindsLazy, hmem]
      exact ⟨fun ⟨l, hl, i, hi, hlater⟩ => ⟨i, ⟨l, hl, hi⟩, hlater⟩,
        fun ⟨i, ⟨l, hl, hi⟩, hlater⟩ => ⟨l, hl, i, hi, hlater⟩⟩
    rw [← boundComponents_eq_nil_iff hweights, hlazy, hsplit, hkept]
    rw [hsplit] at hlines hnone
    have hout := hgrouped.areLines threshold
      (hlines.allBroken (List.cons_ne_nil first back)) (hlines.right.tail.filter _)
    refine ⟨_, hregroup, ?_⟩
    rw [String.toList_ofList, hout.codeLines_flatten, or_iff_right hnone]
    exact hgrouped.bindsOnce_iff threshold hfunction honce

/-! A script with a component and a wrapper of another one. -/

section Example

def lazyImport : List Char := "import \x7b lazy \x7d from 'react';\n".toList

def cardImport : List Char := "import Card from './Card';\n".toList

def chartWrapper : List Char := "const Chart = lazy(() => import('./Chart'));\n".toList

def cardAndChart : String := String.ofList (lazyImport ++ cardImport ++ chartWrapper)

lemma codeLines_cardAndChart :
    codeLines cardAndChart.toList = [lazyImport, cardImport, chartWrapper] := by decide +kernel

lemma isWhole_cardAndChart : ∀ l ∈ codeLines cardAndChart.toList, isWhole l := by
  rw [codeLines_cardAndChart]
  decide +kernel

lemma importsName_chartWrapper : importsName "lazy" "react" chartWrapper = false := by decide +kernel

lemma importsName_cardImport : importsName "lazy" "react" cardImport = false := by decide +kernel

lemma bindsOnce_cardAndChart : BindsOnce "lazy" "react" (codeLines cardAndChart.toList) := by
  have hcount : (codeLines cardAndChart.toList).countP (importsName "lazy" "react") = 1 := by
    have hfunction : loadingFunction? .react = some ("lazy", "react") := rfl
    have hprimitive : importsName "lazy" "react" lazyImport = true :=
      importsName_primitive hfunction (by decide +kernel)
    rw [codeLines_cardAndChart]
    simp [hprimitive, importsName_cardImport, importsName_chartWrapper]
  exact ⟨hcount.le, fun _ => hcount⟩

end Example

/-- A known component that is loaded later brings the import that another wrapper needs as well. -/
theorem regroupLoading_bindsOnce_two :
    let weights : Table WeightedImport := [("Card", ⟨"Card", "./Card", .int 0⟩)]
    loadingFunction? .react = some ("lazy", "react") ∧
      (∀ l ∈ codeLines cardAndChart.toList, isWhole l) ∧
      BindsOnce "lazy" "react" (codeLines cardAndChart.toList) ∧
      ∃ out, regroupLoading .react (.ok (.int 0)) weights cardAndChart = .ok out ∧
        BindsOnce "lazy" "react" (codeLines out.toList) := by
  intro weights
  have hsources : ∀ e ∈ weights, e.2.source.toList.all (fun c => !isQuote c && c != '\n') := by
    decide
  have hweights : AreComponents weights :=
    { name := by decide
      made := by decide +kernel
      source := fun e he c hc => by simpa using List.all_eq_true.1 (hsources e he) c hc }
  have hfunction : loadingFunction? .react = some ("lazy", "react") := rfl
  obtain ⟨out, hout, hiff⟩ := regroupLoading_bindsOnce hfunction (.int 0) hweights
    isWhole_cardAndChart bindsOnce_cardAndChart
  refine ⟨hfunction, isWhole_cardAndChart, bindsOnce_cardAndChart, out, hout, hiff.2 (.inr ?_)⟩
  rw [codeLines_cardAndChart]
  have hlazy : BindsLazy .react (.int 0) weights [lazyImport, cardImport, chartWrapper] :=
    ⟨cardImport, by simp, ⟨"Card", "./Card", .int 0⟩, by decide +kernel, by decide +kernel⟩
  have hkept : keptLines .react weights [lazyImport, cardImport, chartWrapper] = [chartWrapper] := by
    decide +kernel
  rw [hkept]
  refine ⟨fun h => ?_, fun _ => .inr hlazy⟩
  simp [importsName_chartWrapper] at h

/-- A wrapper of another component that loses the import that it needs, since the only known
component is loaded at once. -/
theorem regroupLoading_unbinds :
    let weights : Table WeightedImport := [("Card", ⟨"Card", "./Card", .int 1⟩)]
    BindsOnce "lazy" "react" (codeLines cardAndChart.toList) ∧
      ∃ out, regroupLoading .react (.ok (.int 0)) weights cardAndChart = .ok out ∧
        ¬ BindsOnce "lazy" "react" (codeLines out.toList) := by
  intro weights
  have hcomponents : boundComponents .react weights (codeLines cardAndChart.toList) =
      [⟨"Card", "./Card", .int 1⟩] := by
    rw [codeLines_cardAndChart]
    decide +kernel
  have hblock : (blockLines .react (.int 0) [⟨"Card", "./Card", .int 1⟩]).map
      (blockLine (lazyImport.takeWhile isMargin)) = [cardImport] := by
    rw [blockLines, WeightedImport.ordered, List.mergeSort_singleton]
    decide +kernel
  have hkept : [cardImport, chartWrapper].filter (!isLoadingLine .react weights ·) =
      [chartWrapper] := by decide +kernel
  have hregrouped : regroupedLines .react (.int 0) weights (codeLines cardAndChart.toList) =
      [cardImport, chartWrapper] := by
    rw [regroupedLines_split codeLines_cardAndChart (List.forall_mem_nil _) (by decide +kernel),
      hcomponents, hblock, hkept, List.nil_append, List.singleton_append]
  have hsources : ∀ e ∈ weights, '\n' ∉ e.2.source.toList := by decide
  have hout := regroupLoading_eq .react (.ok (.int 0)) (areLines_codeLines cardAndChart.toList)
    isWhole_cardAndChart hsources (flatten_codeLines cardAndChart.toList).symm
  rw [hcomponents, if_neg (List.cons_ne_nil _ _), Except.map, hregrouped] at hout
  refine ⟨bindsOnce_cardAndChart, _, hout, fun hbinds => ?_⟩
  have hlines : codeLines (String.ofList [cardImport, chartWrapper].flatten).toList =
      [cardImport, chartWrapper] := by decide +kernel
  have hcall : CallsName "lazy" chartWrapper := by
    have hshape : chartWrapper = "const Chart =".toList ++
        ' ' :: ("lazy".toList ++ '(' :: "() => import('./Chart'));\n".toList) := by decide +kernel
    apply callsName_of_space (by decide +kernel) hshape
  rw [hlines] at hbinds
  have hone := hbinds.called ⟨chartWrapper, by simp, hcall⟩
  simp [importsName_cardImport, importsName_chartWrapper] at hone

end ViewWriter.Script
