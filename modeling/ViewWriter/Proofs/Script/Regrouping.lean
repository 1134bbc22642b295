import Mathlib.Algebra.Order.Ring.Int
import ViewWriter.Proofs.Script.LoadingLines

/-! Scripts with regrouped imports: what their block binds, and that regrouping them again changes
nothing. -/

namespace ViewWriter.Script

open ViewWriter.Text

/-- Components by their names, with weights within bounds and sources that quotes can hold. -/
structure AreComponents (weights : Table WeightedImport) : Prop where
  name : ∀ e ∈ weights, e.1 = e.2.name
  made : ∀ e ∈ weights, WeightedImport.make e.2.name e.2.source e.2.weight = .ok e.2
  source : ∀ e ∈ weights, ∀ c ∈ e.2.source.toList, isQuote c = false ∧ c ≠ '\n'

/-- A known component that can be read again. -/
structure IsKnown (weights : Table WeightedImport) (i : WeightedImport) : Prop where
  read : i.IsRead
  found : component? weights i.name i.source = some i
  weight : ∃ n, i.weight.rank? = some (.units n)

section Ranks

variable {a b : Number} {i j : WeightedImport} {weights : Table WeightedImport} {threshold : Number}

/-- The place of a weight on the line of integers. -/
def units (a : Number) : ℤ :=
  match a.rank? with
  | some (.units n) => n
  | _ => 0

lemma le_eq (ha : ∃ n, a.rank? = some (.units n)) (hb : ∃ n, b.rank? = some (.units n)) :
    a.le b = decide (units a ≤ units b) := by
  obtain ⟨m, ha⟩ := ha
  obtain ⟨n, hb⟩ := hb
  rw [Number.le, Number.lt, Number.eq, units, units, ha, hb, Bool.eq_iff_iff]
  simp only [Number.Rank.lt, Bool.or_eq_true, decide_eq_true_eq, beq_iff_eq,
    Number.Rank.units.injEq]
  omega

lemma units_lt (hi : ∃ n, i.weight.rank? = some (.units n))
    (hj : ∃ n, j.weight.rank? = some (.units n)) (heager : i.isEager threshold = true)
    (hlazy : j.isEager threshold = false) : units j.weight < units i.weight := by
  obtain ⟨m, hi⟩ := hi
  obtain ⟨n, hj⟩ := hj
  rw [WeightedImport.isEager, Number.lt, hi] at heager
  rw [WeightedImport.isEager, Number.lt, hj] at hlazy
  rw [units, units, hi, hj]
  cases ht : threshold.rank? with
  | none => simp [ht] at heager
  | some r =>
    rw [ht] at heager hlazy
    cases r with
    | bottom => simp [Number.Rank.lt] at hlazy
    | units k =>
      simp only [Number.Rank.lt, decide_eq_true_eq, decide_eq_false_iff_not] at heager hlazy
      exact lt_of_le_of_lt (not_lt.1 hlazy) heager
    | top => simp [Number.Rank.lt] at heager

lemma rank_of_made {name source : String} (h : WeightedImport.make name source a = .ok i) :
    ∃ n, a.rank? = some (.units n) := by
  obtain ⟨least, hleast⟩ : ∃ n, (Number.int 0).rank? = some (.units n) := ⟨_, rfl⟩
  obtain ⟨most, hmost⟩ : ∃ n, (Number.int 1).rank? = some (.units n) := ⟨_, rfl⟩
  rw [WeightedImport.make] at h
  split_ifs at h with hbounds
  rw [Bool.and_eq_true, Number.le, Number.le, Number.lt, Number.lt, Number.eq, Number.eq, hleast,
    hmost] at hbounds
  cases hr : a.rank? with
  | none => simp [hr] at hbounds
  | some r =>
    rw [hr] at hbounds
    cases r with
    | bottom => simp [Number.Rank.lt] at hbounds
    | units n => exact ⟨n, rfl⟩
    | top => simp [Number.Rank.lt] at hbounds

lemma ordered_eq {imports : List WeightedImport}
    (h : ∀ i ∈ imports, ∃ n, i.weight.rank? = some (.units n)) :
    WeightedImport.ordered imports =
      imports.mergeSort fun a b => decide (units b.weight ≤ units a.weight) := by
  have hmap := List.map_mergeSort (f := id) (l := imports)
    (r := fun a b : WeightedImport => b.weight.le a.weight)
    (s := fun a b => decide (units b.weight ≤ units a.weight))
    fun a ha b hb => le_eq (h b hb) (h a ha)
  rw [WeightedImport.ordered]
  simpa using hmap

lemma units_trans (a b c : WeightedImport) (hab : decide (units b.weight ≤ units a.weight) = true)
    (hbc : decide (units c.weight ≤ units b.weight) = true) :
    decide (units c.weight ≤ units a.weight) = true := by
  simp only [decide_eq_true_eq] at hab hbc ⊢
  exact le_trans hbc hab

lemma units_total (a b : WeightedImport) : (decide (units b.weight ≤ units a.weight) ||
    decide (units a.weight ≤ units b.weight)) = true := by
  simpa using le_total (units b.weight) (units a.weight)

lemma pairwise_ordered {imports : List WeightedImport}
    (h : ∀ i ∈ imports, ∃ n, i.weight.rank? = some (.units n)) :
    (WeightedImport.ordered imports).Pairwise fun a b => b.weight.le a.weight := by
  have hsorted := List.pairwise_mergeSort units_trans units_total imports
  rw [← ordered_eq h] at hsorted
  refine hsorted.imp_of_mem fun {a b} ha hb hab => ?_
  have hmem : ∀ {c}, c ∈ WeightedImport.ordered imports → c ∈ imports :=
    fun hc => (List.mergeSort_perm _ _).mem_iff.1 hc
  rw [le_eq (h b (hmem hb)) (h a (hmem ha))]
  exact hab

lemma sublist_ordered {imports : List WeightedImport}
    (h : ∀ i ∈ imports, ∃ n, i.weight.rank? = some (.units n)) {part : List WeightedImport}
    (hpart : part.Sublist imports) (hsorted : part.Pairwise fun a b => b.weight.le a.weight) :
    part.Sublist (WeightedImport.ordered imports) := by
  rw [ordered_eq h]
  refine List.sublist_mergeSort units_trans units_total (hsorted.imp_of_mem fun {a b} ha hb hab => ?_)
    hpart
  rwa [le_eq (h b (hpart.subset hb)) (h a (hpart.subset ha))] at hab

end Ranks

/-! The known components of a script. -/

section Components

variable {framework : Framework} {weights : Table WeightedImport} {ls : List (List Char)}
  {l indent : List Char} {i : WeightedImport} {threshold : Number}

lemma AreComponents.of_component? (h : AreComponents weights) {name source : String}
    (hname : isIdentifier name.toList = true) (hsource : source.toList ≠ [])
    (hi : component? weights name source = some i) : IsKnown weights i ∧ i.name = name := by
  obtain ⟨hget, hsame⟩ := Option.filter_eq_some_iff.1 hi
  rw [beq_iff_eq] at hsame
  have hmem := Table.mem_of_get? hget
  have hiname := h.name _ hmem
  dsimp only at hiname
  subst hsame hiname
  exact ⟨⟨⟨hname, hsource, h.source _ hmem⟩, hi, rank_of_made (h.made _ hmem)⟩, rfl⟩

lemma isIdentifier_of_mem_locals {c : Clause} {name : String} (hc : c.IsRead)
    (h : name ∈ c.locals) : isIdentifier name.toList = true := by
  rw [Clause.locals, List.mem_append, List.mem_append, Option.mem_toList, Option.mem_toList] at h
  rcases h with (h | h) | h
  · exact hc.default name h
  · exact hc.namespaceName name h
  · obtain ⟨n, hn, rfl⟩ := List.mem_map.1 h
    exact (hc.named n hn).bound

lemma mem_locals_of_componentBinding? {c : Clause} {name : String}
    (h : componentBinding? framework c = some name) : name ∈ c.locals := by
  have hdefault : (if c.typeOnly || c.namespaceName.isSome then none
      else if c.braces then none else c.default) = some name → name ∈ c.locals := by
    intro h
    by_cases hskip : (c.typeOnly || c.namespaceName.isSome) = true
    · simp [hskip] at h
    · by_cases hbraces : c.braces = true
      · simp [hbraces] at h
      · have hsome : c.default = some name := by simpa [hskip, hbraces] using h
        simp [Clause.locals, hsome]
  cases framework with
  | angular =>
    by_cases hskip : (c.typeOnly || c.namespaceName.isSome) = true
    · simp [componentBinding?, hskip] at h
    · simp only [componentBinding?, hskip, Bool.false_eq_true, if_false] at h
      split at h
      · rename_i n _ hnamed
        split_ifs at h
        obtain rfl := Option.some.inj h
        simp [Clause.locals, hnamed]
      · cases h
  | _ => exact hdefault h

lemma AreComponents.of_importLine? (h : AreComponents weights)
    (hi : importLine? framework weights l = some i) : IsKnown weights i := by
  simp only [importLine?, Option.bind_eq_some_iff] at hi
  obtain ⟨s, hs, name, hname, hi⟩ := hi
  have hread := isRead_of_lineStatement? hs
  have hidentifier := isIdentifier_of_mem_locals hread.clause (mem_locals_of_componentBinding? hname)
  exact (h.of_component? hidentifier hread.source_ne hi).1

lemma AreComponents.of_wrapperLine? (h : AreComponents weights)
    (hi : wrapperLine? weights l = some i) : IsKnown weights i := by
  obtain ⟨m, hm, hi⟩ := Option.bind_eq_some_iff.1 hi
  obtain ⟨_, ending, ⟨w, hw, hv, rfl⟩, -, -, -⟩ := lazyLineAt?_endsLines.shape l m hm
  rw [hv] at hi
  exact (h.of_component? (by simpa [Wrapper.line] using hw.name)
    (by simpa [Wrapper.line] using hw.source_ne) hi).1

lemma IsKnown.eq_of_name {j : WeightedImport} (hi : IsKnown weights i) (hj : IsKnown weights j)
    (h : i.name = j.name) : i = j := by
  have hfirst := (Option.filter_eq_some_iff.1 hi.found).1
  have hsecond := (Option.filter_eq_some_iff.1 hj.found).1
  rw [h, hsecond] at hfirst
  exact (Option.some.inj hfirst).symm

end Components

/-! One entry for each name. -/

section Distinct

variable {imports : List WeightedImport} {i : WeightedImport}

lemma nodup_distinct (imports : List WeightedImport) :
    ((distinct imports).map (·.name)).Nodup := by
  induction imports using List.reverseRecOn with
  | nil => exact .nil
  | append_singleton imports i ih =>
    rw [distinct_concat]
    split_ifs with hseen
    · exact ih
    · have hnew : i.name ∉ (distinct imports).map (·.name) := by simpa using hseen
      rw [List.map_append]
      exact ih.append (List.nodup_singleton _) (by simpa using hnew)

lemma mem_distinct_iff (h : ∀ j ∈ imports, ∀ k ∈ imports, j.name = k.name → j = k) :
    i ∈ distinct imports ↔ i ∈ imports := by
  induction imports using List.reverseRecOn generalizing i with
  | nil => rfl
  | append_singleton imports j ih =>
    have hbefore : i ∈ distinct imports ↔ i ∈ imports :=
      ih fun k hk m hm => h k (List.mem_append_left _ hk) m (List.mem_append_left _ hm)
    rw [distinct_concat]
    split_ifs with hseen
    · obtain ⟨k, hk, hname⟩ := List.any_eq_true.1 hseen
      have hk' : k ∈ imports := by
        refine (ih (i := k) ?_).1 hk
        exact fun l hl m hm => h l (List.mem_append_left _ hl) m (List.mem_append_left _ hm)
      have hsame := h k (List.mem_append_left _ hk') j (by simp) (by simpa using hname)
      rw [hbefore, List.mem_append, List.mem_singleton]
      refine ⟨.inl, ?_⟩
      rintro (hi | rfl)
      · exact hi
      · exact hsame ▸ hk'
    · rw [List.mem_append, List.mem_append, hbefore]

lemma distinct_eq_self (h : (imports.map (·.name)).Nodup) : distinct imports = imports := by
  induction imports using List.reverseRecOn with
  | nil => rfl
  | append_singleton imports i ih =>
    rw [List.map_append] at h
    have hnew : ¬(imports.any (·.name == i.name)) = true := by
      have hother : ∀ j ∈ imports, j.name ≠ i.name := fun j hj =>
        (List.nodup_append.1 h).2.2 j.name (List.mem_map_of_mem hj) i.name (by simp)
      simpa using hother
    rw [distinct_concat, ih (List.nodup_append.1 h).1, if_neg hnew]

end Distinct

/-! The lines of a block are found again. -/

/-- The line that binds a known component. -/
def loadLine (framework : Framework) (threshold : Number) (indent : List Char)
    (i : WeightedImport) : List Char :=
  blockLine indent (if i.isEager threshold then eagerLine framework i else lazyLine framework i)

/-- The import that wrappers among some components need. -/
def primitiveLines (framework : Framework) (threshold : Number) (indent : List Char)
    (imports : List WeightedImport) : List (List Char) :=
  (if imports.all (·.isEager threshold) then [] else (primitive? framework).toList).map
    (blockLine indent)

/-- A line of a block, told by itself. -/
structure IsBlockLine (framework : Framework) (weights : Table WeightedImport)
    (indent l : List Char) : Prop where
  loading : isLoadingLine framework weights l = true
  whole : isWhole l = true
  broken : ∃ body, '\n' ∉ body ∧ l = body ++ ['\n']
  margin : l.takeWhile isMargin = indent

section BlockLines

variable {framework : Framework} {weights : Table WeightedImport} {indent : List Char}
  {i : WeightedImport} {threshold : Number}

lemma lineStatement?_eager (hi : i.IsRead) (hindent : ∀ c ∈ indent, isMargin c) :
    lineStatement? (blockLine indent (eagerLine framework i)) =
      some (eagerStatement framework indent i).reread := by
  obtain ⟨hread, hne⟩ := eagerStatement_isRead framework hi hindent
  have hfound := Statement.importAt?_write hread hne []
  rw [List.append_nil, eagerStatement_write] at hfound
  rw [lineStatement?, hfound, Option.bind_some]

lemma source_eagerStatement (framework : Framework) (indent : List Char) (i : WeightedImport) :
    (eagerStatement framework indent i).reread.source = i.source := by
  cases framework <;> rfl

lemma lazyLineAt?_lazy (framework : Framework) (hi : i.IsRead) (hindent : ∀ c ∈ indent, isMargin c) :
    lazyLineAt? (blockLine indent (lazyLine framework i)) =
      some ⟨⟨indent, i.name, i.source⟩, blockLine indent (lazyLine framework i), []⟩ := by
  have hvalid := wrapper_isValid framework hi hindent
  have hfound := lazyLineAt?_endsLines.text _ _ ['\n'] [] ⟨_, hvalid, rfl, rfl⟩ (.inl rfl)
  rw [List.append_nil, wrapper_text] at hfound
  have hline : (wrapper framework indent i).line = ⟨indent, i.name, i.source⟩ := by
    cases framework <;> simp [wrapper, Wrapper.line]
  rw [hfound, hline]

lemma lineStatement?_lazy (hi : i.IsRead) (hindent : ∀ c ∈ indent, isMargin c) :
    lineStatement? (blockLine indent (lazyLine framework i)) = none := by
  have hhead := (head_of_lazyLineAt? (lazyLineAt?_lazy framework hi hindent)).1
  rw [lineStatement?, importAt?_of_head (by rw [hhead]; decide), Option.bind_none]

lemma importLine?_eager (hi : IsKnown weights i) (hindent : ∀ c ∈ indent, isMargin c) :
    importLine? framework weights (blockLine indent (eagerLine framework i)) = some i := by
  rw [importLine?, lineStatement?_eager hi.read hindent]
  simp only [Option.bind_some, componentBinding?_eager, source_eagerStatement, hi.found]

lemma wrapperLine?_lazy (framework : Framework) (hi : IsKnown weights i)
    (hindent : ∀ c ∈ indent, isMargin c) :
    wrapperLine? weights (blockLine indent (lazyLine framework i)) = some i := by
  rw [wrapperLine?, lazyLineAt?_lazy framework hi.read hindent, Option.bind_some]
  exact hi.found

lemma importLine?_lazy (hi : IsKnown weights i) (hindent : ∀ c ∈ indent, isMargin c) :
    importLine? framework weights (blockLine indent (lazyLine framework i)) = none := by
  rw [importLine?, lineStatement?_lazy hi.read hindent, Option.bind_none]

lemma boundLine?_loadLine (hi : IsKnown weights i) (hindent : ∀ c ∈ indent, isMargin c) :
    boundLine? framework weights (loadLine framework threshold indent i) = some i := by
  rw [loadLine, boundLine?]
  split_ifs with heager
  · rw [importLine?_eager hi hindent]
    rfl
  · rw [importLine?_lazy hi hindent]
    exact wrapperLine?_lazy framework hi hindent

lemma isBlockLine_eager (hi : IsKnown weights i) (hindent : ∀ c ∈ indent, isMargin c) :
    IsBlockLine framework weights indent (blockLine indent (eagerLine framework i)) where
  loading := by simp [isLoadingLine, boundLine?, importLine?_eager hi hindent]
  whole := by
    obtain ⟨hread, hne⟩ := eagerStatement_isRead framework hi.read hindent
    rw [← eagerStatement_write]
    exact Statement.isWhole_write hread hne
  broken := by
    have hname : '\n' ∉ i.name.toList := notMem_of_isIdentifier hi.read.name (by decide)
    have hsource : '\n' ∉ i.source.toList := fun h => (hi.read.source _ h).2 rfl
    have hmargin : '\n' ∉ indent := fun h => absurd (hindent _ h) (by decide)
    refine ⟨indent ++ (eagerLine framework i).toList, ?_, by simp [blockLine]⟩
    cases framework <;> simp [eagerLine, hname, hsource, hmargin]
  margin := by
    obtain ⟨hread, hne⟩ := eagerStatement_isRead framework hi.read hindent
    have hfound := Statement.importAt?_write hread hne []
    rw [List.append_nil, eagerStatement_write] at hfound
    rw [← (head_of_importAt? hfound).2 _ rfl]
    cases framework <;> rfl

lemma isWhole_of_head {l : List Char} (h : (l.dropWhile isMargin).head? ≠ some 'i') :
    isWhole l = true := by
  rw [isWhole]
  cases hs : stripPrefix? "import".toList (l.dropWhile isMargin) with
  | none => rfl
  | some after =>
    rw [stripPrefix?_eq_some_iff.1 hs] at h
    exact absurd rfl h

lemma isBlockLine_lazy (hi : IsKnown weights i) (hindent : ∀ c ∈ indent, isMargin c) :
    IsBlockLine framework weights indent (blockLine indent (lazyLine framework i)) := by
  have hvalid := wrapper_isValid framework hi.read hindent
  obtain ⟨hhead, hmargin⟩ := head_of_lazyLineAt? (lazyLineAt?_lazy framework hi.read hindent)
  have hsource : '\n' ∉ (wrapper framework indent i).source := by
    have hno : '\n' ∉ i.source.toList := fun h => (hi.read.source _ h).2 rfl
    cases framework <;> exact hno
  refine ⟨?_, isWhole_of_head (by rw [hhead]; decide), ⟨_, ?_, wrapper_text.symm⟩, ?_⟩
  · have hbound := wrapperLine?_lazy framework hi hindent
    simp [isLoadingLine, boundLine?, hbound]
  · simp [Wrapper.text, hvalid.head_counts.2, hvalid.tail_counts.2, hsource]
  · exact hmargin.symm

lemma isBlockLine_loadLine (hi : IsKnown weights i) (hindent : ∀ c ∈ indent, isMargin c) :
    IsBlockLine framework weights indent (loadLine framework threshold indent i) := by
  rw [loadLine]
  split_ifs
  · exact isBlockLine_eager hi hindent
  · exact isBlockLine_lazy hi hindent

lemma textLineAt?_blockLine {text : String} (h : primitive? framework = some text)
    (hindent : ∀ c ∈ indent, isMargin c) :
    textLineAt? text (blockLine indent text) = some ⟨indent, blockLine indent text, []⟩ := by
  obtain ⟨cs, hcs, -⟩ := primitive?_head h
  have hfound := (textLineAt?_endsLines hcs rfl).text (indent ++ (text.toList ++ [])) indent ['\n'] []
    ⟨[], hindent, by simp, rfl⟩ (.inl rfl)
  simpa [blockLine] using hfound

lemma isPrimitiveLine_blockLine {text : String} (h : primitive? framework = some text)
    (hindent : ∀ c ∈ indent, isMargin c) : isPrimitiveLine framework (blockLine indent text) := by
  simp [isPrimitiveLine, h, textLineAt?_blockLine h hindent]

lemma isBlockLine_primitive {text : String} (h : primitive? framework = some text)
    (hindent : ∀ c ∈ indent, isMargin c) :
    IsBlockLine framework weights indent (blockLine indent text) := by
  obtain ⟨_, _, hbreak⟩ := primitive?_head h
  have hmargin : '\n' ∉ indent := fun hmem => absurd (hindent _ hmem) (by decide)
  refine ⟨?_, ?_, ⟨indent ++ text.toList, by simp [hbreak, hmargin], by simp [blockLine]⟩, ?_⟩
  · simp [isLoadingLine, isPrimitiveLine_blockLine h hindent]
  · obtain ⟨name, source, -, hstatement⟩ := exists_primitiveStatement h
    obtain ⟨hread, htext, -, -⟩ := hstatement indent hindent
    have hwhole := (Statement.shape_isValid hread rfl).isWhole ['\n']
    rwa [htext, List.append_assoc] at hwhole
  · exact (head_of_textLineAt? h (textLineAt?_blockLine h hindent)).2.symm

/-! Each line of a block is found by one matcher only. -/

lemma importLine?_loadLine (hi : IsKnown weights i) (hindent : ∀ c ∈ indent, isMargin c) :
    importLine? framework weights (loadLine framework threshold indent i) =
      if i.isEager threshold then some i else none := by
  rw [loadLine]
  split_ifs
  · exact importLine?_eager hi hindent
  · exact importLine?_lazy hi hindent

lemma wrapperLine?_loadLine (hi : IsKnown weights i) (hindent : ∀ c ∈ indent, isMargin c) :
    wrapperLine? weights (loadLine framework threshold indent i) =
      if i.isEager threshold then none else some i := by
  rw [loadLine]
  split_ifs
  · exact wrapperLine?_of_import (Option.isSome_iff_exists.2 ⟨i, importLine?_eager hi hindent⟩)
  · exact wrapperLine?_lazy framework hi hindent

end BlockLines

/-! Scripts whose known components stand in one block. -/

def groupedLines (framework : Framework) (threshold : Number) (indent : List Char)
    (front : List (List Char)) (imports : List WeightedImport) (back : List (List Char)) :
    List (List Char) :=
  front ++ (primitiveLines framework threshold indent imports ++
    imports.map (loadLine framework threshold indent) ++ back)

/-- What a block binds, and that it is the only one. -/
structure IsGrouped (framework : Framework) (weights : Table WeightedImport) (indent : List Char)
    (front : List (List Char)) (imports : List WeightedImport) (back : List (List Char)) : Prop where
  indent : ∀ c ∈ indent, isMargin c
  front : ∀ l ∈ front, isLoadingLine framework weights l = false
  known : ∀ i ∈ imports, IsKnown weights i
  nodup : (imports.map (·.name)).Nodup
  sorted : imports.Pairwise fun a b => b.weight.le a.weight
  back : ∀ l ∈ back, isLoadingLine framework weights l = false

section Grouped

variable {framework : Framework} {weights : Table WeightedImport} {indent : List Char}
  {imports : List WeightedImport} {threshold : Number} {front back ls : List (List Char)}

lemma map_blockLines (imports : List WeightedImport) :
    (blockLines framework threshold imports).map (blockLine indent) =
      primitiveLines framework threshold indent (WeightedImport.ordered imports) ++
        (WeightedImport.ordered imports).map (loadLine framework threshold indent) := by
  rw [blockLines, List.map_append, List.map_map]
  rfl

lemma mem_primitiveLines {l : List Char} : l ∈ primitiveLines framework threshold indent imports ↔
    (∃ i ∈ imports, i.isEager threshold = false) ∧
      ∃ text, primitive? framework = some text ∧ l = blockLine indent text := by
  have hall : imports.all (·.isEager threshold) = true ↔
      ¬∃ i ∈ imports, i.isEager threshold = false := by
    simp
  rw [primitiveLines]
  split_ifs with heager
  · simp [hall.1 heager]
  · have hlazy := not_not.1 (mt hall.2 heager)
    simp only [List.mem_map, Option.mem_toList, hlazy, true_and]
    exact exists_congr fun text => and_congr_right fun _ => eq_comm

lemma IsGrouped.isBlockLine (h : IsGrouped framework weights indent front imports back)
    {l : List Char} (hl : l ∈ primitiveLines framework threshold indent imports ++
      imports.map (loadLine framework threshold indent)) : IsBlockLine framework weights indent l := by
  rcases List.mem_append.1 hl with hl | hl
  · obtain ⟨-, text, htext, rfl⟩ := mem_primitiveLines.1 hl
    exact isBlockLine_primitive htext h.indent
  · obtain ⟨i, hi, rfl⟩ := List.mem_map.1 hl
    exact isBlockLine_loadLine (h.known i hi) h.indent

lemma boundLine?_primitiveLines (hindent : ∀ c ∈ indent, isMargin c) {l : List Char}
    (hl : l ∈ primitiveLines framework threshold indent imports) :
    boundLine? framework weights l = none := by
  obtain ⟨-, text, htext, rfl⟩ := mem_primitiveLines.1 hl
  exact boundLine?_of_primitive (isPrimitiveLine_blockLine htext hindent)

lemma boundLine?_of_not_loading {l : List Char} (h : isLoadingLine framework weights l = false) :
    boundLine? framework weights l = none := by
  rw [isLoadingLine, Bool.or_eq_false_iff] at h
  simpa using h.1

/-- In a script with one block, only the lines of its components are read. -/
lemma IsGrouped.filterMap_eq {f : List Char → Option WeightedImport}
    (h : IsGrouped framework weights indent front imports back)
    (hf : ∀ l, boundLine? framework weights l = none → f l = none) :
    (groupedLines framework threshold indent front imports back).filterMap f =
      imports.filterMap fun i => f (loadLine framework threshold indent i) := by
  have hnone : ∀ ls : List (List Char), (∀ l ∈ ls, boundLine? framework weights l = none) →
      ls.filterMap f = [] :=
    fun ls hls => List.filterMap_eq_nil_iff.2 fun l hl => hf l (hls l hl)
  have hfront := hnone front fun l hl => boundLine?_of_not_loading (h.front l hl)
  have hback := hnone back fun l hl => boundLine?_of_not_loading (h.back l hl)
  have hprimitive := hnone (primitiveLines framework threshold indent imports)
    fun l hl => boundLine?_primitiveLines h.indent hl
  rw [groupedLines, List.filterMap_append, List.filterMap_append, List.filterMap_append, hfront,
    hback, hprimitive, List.nil_append, List.nil_append, List.append_nil, List.filterMap_map]
  rfl

lemma IsGrouped.filterMap_boundLine? (h : IsGrouped framework weights indent front imports back) :
    (groupedLines framework threshold indent front imports back).filterMap
      (boundLine? framework weights) = imports := by
  rw [h.filterMap_eq fun l hl => hl]
  have hsome : ∀ i ∈ imports,
      boundLine? framework weights (loadLine framework threshold indent i) = some i :=
    fun i hi => boundLine?_loadLine (h.known i hi) h.indent
  rw [List.filterMap_congr hsome, List.filterMap_some]

lemma IsGrouped.filter_eager (h : IsGrouped framework weights indent front imports back) :
    imports.filter (·.isEager threshold) ++ imports.filter (!·.isEager threshold) = imports := by
  have hsorted := h.sorted
  have hknown := h.known
  clear h
  induction imports with
  | nil => rfl
  | cons i imports ih =>
    obtain ⟨hfirst, hrest⟩ := List.pairwise_cons.1 hsorted
    have hih := ih hrest fun j hj => hknown j (List.mem_cons_of_mem i hj)
    by_cases hi : i.isEager threshold = true
    · simp [hi, hih]
    · have hlazy : ∀ j ∈ imports, j.isEager threshold = false := by
        intro j hj
        refine Bool.eq_false_iff.2 fun heager => ?_
        have hi' := hknown i List.mem_cons_self
        have hj' := hknown j (List.mem_cons_of_mem i hj)
        have hlt := units_lt hj'.weight hi'.weight heager (by simpa using hi)
        have hle := hfirst j hj
        rw [le_eq hj'.weight hi'.weight, decide_eq_true_eq] at hle
        exact absurd hlt (not_lt.2 hle)
      have hnone : imports.filter (·.isEager threshold) = [] :=
        List.filter_eq_nil_iff.2 (by simpa using hlazy)
      rw [hnone, List.nil_append] at hih
      simp [hi, hnone, hih]

lemma IsGrouped.boundComponents_eq (h : IsGrouped framework weights indent front imports back)
    (threshold : Number) :
    boundComponents framework weights (groupedLines framework threshold indent front imports back) =
      imports := by
  have himport : (groupedLines framework threshold indent front imports back).filterMap
      (importLine? framework weights) = imports.filter (·.isEager threshold) := by
    rw [h.filterMap_eq fun l hl => (Option.or_eq_none_iff.1 hl).1, ← List.filterMap_eq_filter]
    refine List.filterMap_congr fun i hi => ?_
    rw [importLine?_loadLine (h.known i hi) h.indent, Option.guard]
  have hwrapper : (groupedLines framework threshold indent front imports back).filterMap
      (wrapperLine? weights) = imports.filter (!·.isEager threshold) := by
    rw [h.filterMap_eq fun l hl => (Option.or_eq_none_iff.1 hl).2, ← List.filterMap_eq_filter]
    refine List.filterMap_congr fun i hi => ?_
    rw [wrapperLine?_loadLine (h.known i hi) h.indent, Option.guard]
    cases i.isEager threshold <;> rfl
  rw [boundComponents, himport, hwrapper, h.filter_eager, distinct_eq_self h.nodup]

/-- A block is regrouped into itself. -/
lemma IsGrouped.regroupedLines_eq (h : IsGrouped framework weights indent front imports back)
    (hne : imports ≠ []) :
    regroupedLines framework threshold weights
        (groupedLines framework threshold indent front imports back) =
      groupedLines framework threshold indent front imports back := by
  have hcomponents := h.boundComponents_eq threshold
  have hordered : WeightedImport.ordered imports = imports := List.mergeSort_of_pairwise h.sorted
  have hblock : ∀ l ∈ primitiveLines framework threshold indent imports ++
      imports.map (loadLine framework threshold indent), IsBlockLine framework weights indent l :=
    fun l hl => h.isBlockLine hl
  cases hlines : primitiveLines framework threshold indent imports ++
      imports.map (loadLine framework threshold indent) with
  | nil => simp [hne] at hlines
  | cons first rest =>
    rw [hlines] at hblock
    have hrest : (rest ++ back).filter (!isLoadingLine framework weights ·) = back := by
      have hloading : ∀ l ∈ rest, isLoadingLine framework weights l = true :=
        fun l hl => (hblock l (List.mem_cons_of_mem first hl)).loading
      have hother := h.back
      rw [List.filter_append, List.filter_eq_nil_iff.2 (by simpa using hloading),
        List.filter_eq_self.2 (by simpa using hother), List.nil_append]
    have hsplit : groupedLines framework threshold indent front imports back =
        front ++ first :: (rest ++ back) := by
      rw [groupedLines, hlines, List.cons_append]
    have hfirst := hblock first List.mem_cons_self
    rw [regroupedLines_split hsplit h.front hfirst.loading, hcomponents, hfirst.margin, map_blockLines,
      hordered, hrest, groupedLines]

end Grouped

end ViewWriter.Script
