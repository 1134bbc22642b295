import ViewWriter.Proofs.Script.LoadingBlock

/-! Blocks of imports are read back. The matcher for imports finds what is loaded at once, and the one for
wrappers what is loaded later. -/

namespace ViewWriter.Script

open ViewWriter.Text

/-- The components that a script imports, by name and source. -/
def importedComponents (framework : Framework) (code : String) : List (String × String) :=
  (imports code).filterMap fun (s, _) => (componentBinding? framework s.clause).map (·, s.source)

/-- The components that a script loads later, by name and source. -/
def wrappedComponents (code : String) : List (String × String) :=
  (found 0 (pieces lazyLineAt? code.toList)).map fun (l, _) => (l.name, l.source)

def lineComponent? (framework : Framework) (l : List Char) : Option (String × String) :=
  (lineStatement? l).bind fun s => (componentBinding? framework s.clause).map (·, s.source)

def lineWrapper? (l : List Char) : Option (String × String) :=
  (lazyLineAt? l).map fun m => (m.value.name, m.value.source)

section Matchers

variable {framework : Framework} {ls : List (List Char)} {l indent : List Char} {code : String}
  {i : WeightedImport}

lemma importedComponents_eq (hls : AreLines ls) (hwhole : ∀ l ∈ ls, isWhole l)
    (hcode : code.toList = ls.flatten) :
    importedComponents framework code = ls.filterMap (lineComponent? framework) := by
  have hplaces := List.filterMap_map (f := fun p : List Char × ℕ × ℕ => p.1)
    (g := lineComponent? framework) (l := places 0 ls)
  rw [map_places] at hplaces
  rw [importedComponents, imports, importPieces, hcode,
    pieces_lines hls fun l hl => isWhole.decides (hwhole l hl), found_lines, List.filterMap_filterMap,
    List.filterMap_filterMap, hplaces]
  refine List.filterMap_congr fun p _ => ?_
  rw [Function.comp_apply, lineComponent?, lineStatement?]
  cases importAt? p.1 with
  | none => rfl
  | some m => cases hs : m.value <;> simp [hs]

/-- A wrapper that is spread over lines has one quotation mark on the first of them. -/
lemma lazyLineAt?_decides (h : l.count '\'' ≠ 1) :
    Decides lazyLineAt? (fun l => (lazyLineAt? l).map (·.value)) l := by
  refine lazyLineAt?_endsLines.decides ?_
  rintro rest _ _ ending rest' hl ⟨w, hw, -, rfl⟩ - hcs hmem
  obtain ⟨front, back, hsplit, hfront, hone, -, -⟩ := hw.split hmem
  rw [hsplit, List.append_assoc, List.cons_append] at hcs
  rcases hl with ⟨body, hbody, rfl⟩ | ⟨-, hno, rfl⟩
  · rw [List.append_assoc, List.singleton_append] at hcs
    obtain ⟨rfl, -⟩ := break_unique hbody hfront hcs
    exact h (by rw [List.count_append, hone]; rfl)
  · rw [List.append_nil] at hcs
    exact hno (by simp [hcs])

lemma wrappedComponents_eq (hls : AreLines ls) (hquotes : ∀ l ∈ ls, l.count '\'' = 2)
    (hcode : code.toList = ls.flatten) : wrappedComponents code = ls.filterMap lineWrapper? := by
  have hplaces := List.filterMap_map (f := fun p : List Char × ℕ × ℕ => p.1) (g := lineWrapper?)
    (l := places 0 ls)
  rw [map_places] at hplaces
  have hdecides : ∀ l ∈ ls, Decides lazyLineAt? (fun l => (lazyLineAt? l).map (·.value)) l :=
    fun l hl => lazyLineAt?_decides (by rw [hquotes l hl]; decide)
  rw [wrappedComponents, hcode, pieces_lines hls hdecides, found_lines, List.map_filterMap, hplaces]
  refine List.filterMap_congr fun p _ => ?_
  rw [Function.comp_apply, lineWrapper?, Option.map_map, Option.map_map]
  rfl

/-! Each line of a block has two quotation marks, around its source. -/

lemma count_quote_margin (hindent : ∀ c ∈ indent, isMargin c) : indent.count '\'' = 0 :=
  List.count_eq_zero.2 fun h => absurd (hindent _ h) (by decide)

lemma count_quote_blockLine (hindent : ∀ c ∈ indent, isMargin c) (text : String) :
    (blockLine indent text).count '\'' = text.toList.count '\'' := by
  rw [blockLine, List.count_append, List.count_append, count_quote_margin hindent, Nat.zero_add]
  rfl

lemma count_quote_eager (hi : i.IsRead) (hindent : ∀ c ∈ indent, isMargin c) :
    (blockLine indent (eagerLine framework i)).count '\'' = 2 := by
  have hname : i.name.toList.count '\'' = 0 :=
    List.count_eq_zero.2 (notMem_of_isIdentifier hi.name (by decide))
  have hsource : i.source.toList.count '\'' = 0 :=
    List.count_eq_zero.2 fun h => absurd (hi.source _ h).1 (by decide)
  rw [count_quote_blockLine hindent]
  cases framework <;>
    simp only [eagerLine, String.toList_append, List.count_append, hname, hsource] <;> rfl

lemma count_quote_lazy (hi : i.IsRead) (hindent : ∀ c ∈ indent, isMargin c) :
    (blockLine indent (lazyLine framework i)).count '\'' = 2 := by
  rw [← wrapper_text, List.count_append, (wrapper_isValid framework hi hindent).count_text]
  rfl

lemma count_quote_primitive {text : String} (h : primitive? framework = some text)
    (hindent : ∀ c ∈ indent, isMargin c) : (blockLine indent text).count '\'' = 2 := by
  rw [count_quote_blockLine hindent]
  cases framework with
  | react =>
    obtain rfl := Option.some.inj h
    rw [String.toList_ofList]
    rfl
  | vue =>
    obtain rfl := Option.some.inj h
    rw [String.toList_ofList]
    rfl
  | angular => cases h
  | html => cases h

end Matchers

section Blocks

variable {framework : Framework} {threshold : Number} {indent l : List Char}
  {imports : List WeightedImport} {i : WeightedImport}

lemma lineComponent?_loadLine (hi : i.IsRead) (hindent : ∀ c ∈ indent, isMargin c) :
    lineComponent? framework (loadLine framework threshold indent i) =
      if i.isEager threshold then some (i.name, i.source) else none := by
  rw [loadLine, lineComponent?]
  split_ifs
  · rw [lineStatement?_eager hi hindent, Option.bind_some, componentBinding?_eager, Option.map_some,
      source_eagerStatement]
  · rw [lineStatement?_lazy hi hindent, Option.bind_none]

lemma lineWrapper?_loadLine (hi : i.IsRead) (hindent : ∀ c ∈ indent, isMargin c) :
    lineWrapper? (loadLine framework threshold indent i) =
      if i.isEager threshold then none else some (i.name, i.source) := by
  rw [loadLine, lineWrapper?]
  split_ifs
  · rw [lazyLineAt?_of_statement (by rw [lineStatement?_eager hi hindent]; rfl), Option.map_none]
  · rw [lazyLineAt?_lazy framework hi hindent, Option.map_some]

lemma line_of_primitive (h : isPrimitiveLine framework l) :
    lineComponent? framework l = none ∧ lineWrapper? l = none := by
  obtain ⟨s, hs, hbinding, -⟩ := lineStatement?_of_primitive h
  constructor
  · rw [lineComponent?, hs, Option.bind_some, hbinding, Option.map_none]
  · rw [lineWrapper?, lazyLineAt?_of_statement (by rw [hs]; rfl), Option.map_none]

lemma isPrimitiveLine_loadLine (hi : i.IsRead) (hindent : ∀ c ∈ indent, isMargin c) :
    isPrimitiveLine framework (loadLine framework threshold indent i) = false := by
  refine Bool.eq_false_iff.2 fun h => ?_
  have hnone := line_of_primitive h
  rw [lineComponent?_loadLine hi hindent, lineWrapper?_loadLine hi hindent] at hnone
  split_ifs at hnone <;> simp at hnone

lemma isPrimitiveLine_of_mem (hindent : ∀ c ∈ indent, isMargin c)
    (hl : l ∈ primitiveLines framework threshold indent imports) : isPrimitiveLine framework l := by
  obtain ⟨-, text, htext, rfl⟩ := mem_primitiveLines.1 hl
  exact isPrimitiveLine_blockLine htext hindent

lemma count_quote_block (hread : ∀ i ∈ imports, i.IsRead) (hindent : ∀ c ∈ indent, isMargin c)
    (hl : l ∈ primitiveLines framework threshold indent imports ++
      imports.map (loadLine framework threshold indent)) : l.count '\'' = 2 := by
  rcases List.mem_append.1 hl with hl | hl
  · obtain ⟨-, text, htext, rfl⟩ := mem_primitiveLines.1 hl
    exact count_quote_primitive htext hindent
  · obtain ⟨i, hi, rfl⟩ := List.mem_map.1 hl
    rw [loadLine]
    split_ifs
    · exact count_quote_eager (hread i hi) hindent
    · exact count_quote_lazy (hread i hi) hindent

lemma filterMap_block {α : Type} {f : List Char → Option α} {p : WeightedImport → Bool}
    {g : WeightedImport → α} (hprimitive : ∀ l, isPrimitiveLine framework l → f l = none)
    (hindent : ∀ c ∈ indent, isMargin c)
    (hf : ∀ i ∈ imports, f (loadLine framework threshold indent i) = if p i then some (g i) else none) :
    (primitiveLines framework threshold indent imports ++
      imports.map (loadLine framework threshold indent)).filterMap f = (imports.filter p).map g := by
  have hnone : (primitiveLines framework threshold indent imports).filterMap f = [] :=
    List.filterMap_eq_nil_iff.2 fun l hl => hprimitive l (isPrimitiveLine_of_mem hindent hl)
  rw [List.filterMap_append, hnone, List.nil_append, List.filterMap_map, ← List.filterMap_eq_filter,
    List.map_filterMap]
  refine List.filterMap_congr fun i hi => ?_
  rw [Function.comp_apply, hf i hi]
  cases hp : p i <;> simp [Option.guard, hp]

lemma countP_block (hread : ∀ i ∈ imports, i.IsRead) (hindent : ∀ c ∈ indent, isMargin c) :
    (primitiveLines framework threshold indent imports ++
      imports.map (loadLine framework threshold indent)).countP (isPrimitiveLine framework) =
      if (∃ i ∈ imports, i.isEager threshold = false) ∧ (primitive? framework).isSome then 1 else 0 := by
  have hfirst : (primitiveLines framework threshold indent imports).countP
      (isPrimitiveLine framework) = (primitiveLines framework threshold indent imports).length :=
    List.countP_eq_length.2 fun l hl => isPrimitiveLine_of_mem hindent hl
  have hrest : (imports.map (loadLine framework threshold indent)).countP (isPrimitiveLine framework) =
      0 := by
    rw [List.countP_eq_zero]
    intro l hl
    obtain ⟨i, hi, rfl⟩ := List.mem_map.1 hl
    simp [isPrimitiveLine_loadLine (hread i hi) hindent]
  have hall : imports.all (·.isEager threshold) = true ↔
      ¬ ∃ i ∈ imports, i.isEager threshold = false := by
    simp
  rw [List.countP_append, hfirst, hrest, primitiveLines, List.length_map, Nat.add_zero]
  by_cases hlazy : ∃ i ∈ imports, i.isEager threshold = false
  · rw [if_neg (mt hall.1 (not_not.2 hlazy))]
    cases hprimitive : primitive? framework <;> simp [hlazy]
  · rw [if_pos (hall.2 hlazy), if_neg fun h => hlazy h.1]
    rfl

lemma count_of_nodup_names (hnames : (imports.map (·.name)).Nodup) (hi : i ∈ imports)
    (p : WeightedImport → Bool) :
    ((imports.filter p).map fun i => (i.name, i.source)).count (i.name, i.source) =
      if p i then 1 else 0 := by
  have hsame : ∀ j ∈ imports, (j.name, j.source) = (i.name, i.source) → j = i := fun j hj h =>
    List.inj_on_of_nodup_map hnames hj hi (congrArg Prod.fst h)
  have hnodup : ((imports.filter p).map fun i => (i.name, i.source)).Nodup := by
    refine List.Nodup.of_map Prod.fst ?_
    rw [List.map_map]
    exact hnames.sublist ((List.filter_sublist).map _)
  split_ifs with hp
  · exact List.count_eq_one_of_mem hnodup (List.mem_map_of_mem (List.mem_filter.2 ⟨hi, hp⟩))
  · refine List.count_eq_zero.2 fun hmem => hp ?_
    obtain ⟨j, hj, hpair⟩ := List.mem_map.1 hmem
    obtain ⟨hj, hpj⟩ := List.mem_filter.1 hj
    rwa [hsame j hj hpair] at hpj

lemma isGrouped_block (hread : ∀ i ∈ imports, i.IsRead)
    (hmade : ∀ i ∈ imports, WeightedImport.make i.name i.source i.weight = .ok i)
    (hnames : (imports.map (·.name)).Nodup) (hindent : ∀ c ∈ indent, isMargin c) :
    IsGrouped framework (imports.map fun i => (i.name, i)) indent []
      (WeightedImport.ordered imports) [] := by
  have hperm := List.mergeSort_perm imports fun a b : WeightedImport => b.weight.le a.weight
  have hkeys : (Table.keys (imports.map fun i => (i.name, i))).Nodup := by
    rw [Table.keys, List.map_map]
    exact hnames
  refine ⟨hindent, by simp, fun i hi => ?_, (hperm.map _).nodup_iff.2 hnames,
    pairwise_ordered fun i hi => rank_of_made (hmade i hi), by simp⟩
  have hmem := hperm.mem_iff.1 hi
  refine ⟨hread i hmem, ?_, rank_of_made (hmade i hmem)⟩
  rw [component?, Table.get?_of_mem hkeys (List.mem_map_of_mem hmem)]
  simp [Option.filter]

end Blocks

/-- A block has its components by descending weight, those that are loaded at once before the others.
Each of them is found once, by the matcher for imports if it is heavier than the threshold and by the
one for wrappers if it is not. The function that loads components later is imported once, and first,
where it is needed. -/
theorem block_read_back (framework : Framework) (threshold : Number) (indent : String)
    {imports : List WeightedImport} (hindent : ∀ c ∈ indent.toList, isMargin c)
    (hread : ∀ i ∈ imports, i.IsRead)
    (hmade : ∀ i ∈ imports, WeightedImport.make i.name i.source i.weight = .ok i)
    (hnames : (imports.map (·.name)).Nodup) :
    let sorted := WeightedImport.ordered imports
    let code := block framework threshold indent imports
    sorted.Perm imports ∧ sorted.Pairwise (fun i j => j.weight.le i.weight) ∧
      (∀ part : List WeightedImport, part.Sublist imports →
        part.Pairwise (fun i j => j.weight.le i.weight) → part.Sublist sorted) ∧
      sorted.filter (·.isEager threshold) ++ sorted.filter (!·.isEager threshold) = sorted ∧
      codeLines code.toList = primitiveLines framework threshold indent.toList sorted ++
        sorted.map (loadLine framework threshold indent.toList) ∧
      importedComponents framework code =
        (sorted.filter (·.isEager threshold)).map (fun i => (i.name, i.source)) ∧
      wrappedComponents code =
        (sorted.filter (!·.isEager threshold)).map (fun i => (i.name, i.source)) ∧
      (∀ i ∈ imports,
        (importedComponents framework code).count (i.name, i.source) =
          (if i.isEager threshold then 1 else 0) ∧
        (wrappedComponents code).count (i.name, i.source) =
          if i.isEager threshold then 0 else 1) ∧
      (codeLines code.toList).countP (isPrimitiveLine framework) =
        if (∃ i ∈ imports, i.isEager threshold = false) ∧ (primitive? framework).isSome then 1
        else 0 := by
  intro sorted code
  have hperm : sorted.Perm imports := List.mergeSort_perm _ _
  have hranks : ∀ i ∈ imports, ∃ n, i.weight.rank? = some (.units n) :=
    fun i hi => rank_of_made (hmade i hi)
  have hgrouped : IsGrouped framework _ indent.toList [] sorted [] :=
    isGrouped_block hread hmade hnames hindent
  have hsorted : ∀ i ∈ sorted, i.IsRead := fun i hi => hread i (hperm.mem_iff.1 hi)
  have hlines := hgrouped.areLines threshold (fun l hl => by cases hl) .nil
  have hwhole : ∀ l ∈ groupedLines framework threshold indent.toList [] sorted [], isWhole l :=
    hgrouped.whole_lines (by simp) (by simp)
  rw [groupedLines, List.nil_append, List.append_nil] at hlines hwhole
  have hcode : code.toList = (primitiveLines framework threshold indent.toList sorted ++
      sorted.map (loadLine framework threshold indent.toList)).flatten := by
    rw [← map_blockLines, ← flatten_blockLines, String.ofList_toList]
  have himported : importedComponents framework code =
      (sorted.filter (·.isEager threshold)).map (fun i => (i.name, i.source)) := by
    rw [importedComponents_eq hlines hwhole hcode]
    exact filterMap_block (fun l hl => (line_of_primitive hl).1) hindent
      fun i hi => lineComponent?_loadLine (hsorted i hi) hindent
  have hwrapped : wrappedComponents code =
      (sorted.filter (!·.isEager threshold)).map (fun i => (i.name, i.source)) := by
    have hwrapper : ∀ i ∈ sorted, lineWrapper? (loadLine framework threshold indent.toList i) =
        if (!i.isEager threshold) = true then some (i.name, i.source) else none := by
      intro i hi
      rw [lineWrapper?_loadLine (hsorted i hi) hindent]
      cases i.isEager threshold <;> rfl
    rw [wrappedComponents_eq hlines (fun l hl => count_quote_block hsorted hindent hl) hcode]
    exact filterMap_block (fun l hl => (line_of_primitive hl).2) hindent hwrapper
  have hlines' := hlines.codeLines_flatten
  rw [← hcode] at hlines'
  refine ⟨hperm, pairwise_ordered hranks, fun part => sublist_ordered hranks, hgrouped.filter_eager,
    hlines', himported, hwrapped, fun i hi => ?_, ?_⟩
  · have hcount := fun p : WeightedImport → Bool =>
      count_of_nodup_names (hgrouped.nodup) (hperm.mem_iff.2 hi) p
    rw [himported, hwrapped, hcount, hcount]
    cases i.isEager threshold <;> exact ⟨rfl, rfl⟩
  · rw [hlines', countP_block hsorted hindent]
    simp only [hperm.mem_iff]

def keywordImports : List WeightedImport :=
  [⟨"type", "./\x7bT\x7d", .int 1⟩, ⟨"from", "./a, b", .int 0⟩]

theorem block_read_back_keywords :
    (∀ i ∈ keywordImports, WeightedImport.make i.name i.source i.weight = .ok i) ∧
      importedComponents .react (block .react (.int 0) " \t" keywordImports) =
        [("type", "./\x7bT\x7d")] ∧
      wrappedComponents (block .react (.int 0) " \t" keywordImports) = [("from", "./a, b")] := by
  have hmade : ∀ i ∈ keywordImports, WeightedImport.make i.name i.source i.weight = .ok i := by
    decide +kernel
  have hplain : ∀ i ∈ keywordImports, i.source.toList.all (fun c => !isQuote c && c != '\n') = true := by
    decide
  have hread : ∀ i ∈ keywordImports, i.IsRead := fun i hi =>
    { name := by revert i; decide
      source_ne := by revert i; decide
      source := fun c hc => by simpa using List.all_eq_true.1 (hplain i hi) c hc }
  have hindent : " \t".toList.all isMargin = true := by decide
  obtain ⟨-, -, -, -, -, himported, hwrapped, -⟩ :=
    block_read_back .react (.int 0) " \t" (List.all_eq_true.1 hindent) hread hmade (by decide)
  have hordered : WeightedImport.ordered keywordImports = keywordImports :=
    List.mergeSort_of_pairwise (by decide +kernel)
  rw [hordered] at himported hwrapped
  refine ⟨hmade, himported.trans ?_, hwrapped.trans ?_⟩ <;> decide +kernel

end ViewWriter.Script
