import ViewWriter.Proofs.Optimization
import ViewWriter.Proofs.Script.StableImports
import ViewWriter.Proofs.Text.Occurrences

/-! How often a needle stands in a script that is made smaller. What is taken out begins at a line, and
what comes in its place has the needle no more often, so that the script does not have it more often
than before. -/

namespace ViewWriter.Script

open ViewWriter.Text

variable {n : Needle}

/-! Unused imports. -/

section Restriction

variable {used : String → Bool} {s : Statement} {ps : List (Piece (Option Statement))}
  {p : Piece (Option Statement)}

lemma count_write (h : s.IsRead) : n.count s.write.toList = n.count s.source.toList := by
  have hquote : isStop s.quote = true ∧ isPlain s.quote = true := by
    have hcases : s.quote = '\'' ∨ s.quote = '"' := by simpa [isQuote] using h.quote
    rcases hcases with hq | hq <;> rw [hq] <;> decide
  have hbefore : '/' ∉ s.indent ++ ("import".toList ++ s.shape.between) := by
    have hindent : '/' ∉ s.indent := fun hm => absurd (h.indent _ hm) (by decide)
    have hclause := Clause.notMem_write h.clause (a := '/') (by decide) (by decide)
    simp [Statement.shape, hindent, hclause]
  have hafter : '/' ∉ s.shape.tail ++ ['\n'] := by
    cases hsemicolon : s.semicolon <;> simp [Statement.shape, Shape.tail, hsemicolon]
  have hsplit : s.write.toList = s.indent ++ ("import".toList ++ s.shape.between) ++ s.quote ::
      (s.source.toList ++ s.quote :: (s.shape.tail ++ ['\n'])) := by
    simp [Statement.toList_write, Shape.text, Statement.shape]
  rw [hsplit, Needle.count_append_stop hquote.1, Needle.count_of_plain hquote.2,
    Needle.count_append_stop hquote.1, Needle.count_of_plain hquote.2,
    Needle.count_eq_zero_iff.2 (Needle.avoids_of_notMem_slash hbefore),
    Needle.count_eq_zero_iff.2 (Needle.avoids_of_notMem_slash hafter), Nat.zero_add, Nat.add_zero]

lemma source_isInfix {shape : Shape} {clause : List Char} (h : some s = shape.statement clause) :
    s.source.toList <:+: shape.text := by
  obtain ⟨c, -, rfl⟩ := Option.map_eq_some_iff.1 h.symm
  rw [String.toList_ofList]
  exact ⟨shape.indent ++ ("import".toList ++ (shape.between ++ [shape.quote])),
    shape.quote :: shape.tail, by simp [Shape.text]⟩

lemma count_restrictPiece (hp : IsPiece p ps) :
    n.count (concatPieces (restrictPiece used p)) ≤ n.count p.raw := by
  rcases p with cs | ⟨_ | st, raw⟩
  · simp [restrictPiece, concatPieces, Piece.raw]
  · simp [restrictPiece, concatPieces, Piece.raw]
  · obtain ⟨shape, clause, ending, hshape, hst, rfl, -⟩ := hp
    have hread := Statement.isRead_of_shape hshape hst.symm
    simp only [restrictPiece]
    split_ifs
    · simp [concatPieces, Piece.raw]
    · simp [concatPieces, Needle.count_eq_zero_iff.2 Needle.avoids_nil]
    · have hwrite := count_write (n := n) (hread.restrict used)
      simp only [concatPieces, List.flatMap_cons, List.flatMap_nil, List.append_nil, Piece.raw]
      rw [hwrite]
      exact occurrences_le_of_isInfix
        ((source_isInfix hst).trans (List.prefix_append _ _).isInfix)

lemma restrictPiece_closed (hp : IsPiece p ps) :
    AtLineStart (concatPieces (restrictPiece used p)) ∨ ps = [] := by
  refine hp.closed.imp_left fun ⟨l, hl⟩ => ?_
  have hraw : AtLineStart p.raw := .inr ⟨l, hl⟩
  rcases p with cs | ⟨_ | st, raw⟩
  · simpa [restrictPiece, concatPieces] using hraw
  · simpa [restrictPiece, concatPieces] using hraw
  · simp only [restrictPiece]
    split_ifs
    · simpa [concatPieces] using hraw
    · exact .inl rfl
    · have hwrite := Statement.toList_write { st with clause := st.clause.restrict used }
      exact .inr ⟨_, by simpa [concatPieces, Piece.raw] using hwrite⟩

lemma count_restrictPieces (h : ArePieces ps) :
    n.count (restrictPieces used ps) ≤ n.count (concatPieces ps) := by
  induction h with
  | nil => exact le_rfl
  | @cons p rest hp _ ih =>
    have hpiece : n.count (concatPieces (restrictPiece used p)) ≤ n.count p.raw :=
      count_restrictPiece hp
    have hend : AtLineStart (concatPieces (restrictPiece used p)) ∨ rest = [] :=
      restrictPiece_closed hp
    have hall : concatPieces (p :: rest) = p.raw ++ concatPieces rest := List.flatMap_cons
    rw [restrictPieces_cons, hall]
    rcases hend with hclosed | rfl
    · rcases hp.closed with ⟨l, hl⟩ | rfl
      · rw [Needle.count_append_of_atLineStart hclosed,
          Needle.count_append_of_atLineStart (show AtLineStart p.raw from .inr ⟨l, hl⟩)]
        exact Nat.add_le_add hpiece ih
      · simpa [restrictPieces, concatPieces] using hpiece
    · simpa [restrictPieces, concatPieces] using hpiece

lemma count_withoutUnused (preserve : List String) (code : String) :
    n.count (withoutUnused preserve code).toList ≤ n.count code.toList := by
  have hpieces : n.count (restrictPieces (references (bodyOf (importPieces code)) ++
      preserve).contains (importPieces code)) ≤ _ := count_restrictPieces (arePieces_pieces code.toList)
  rw [importPieces, concatPieces_pieces importAt?_faithful] at hpieces
  rwa [withoutUnused, String.toList_ofList]

end Restriction

/-! Stretches that are taken out. -/

/-- A stretch of a script from the start of a line on. -/
structure Span.IsAtLine (s : Span) (cs : List Char) : Prop where
  start : AtLineStart (cs.take s.first)
  le : s.first ≤ s.last
  indent : ∀ c ∈ s.indent, isMargin c

/-- What a matcher found at a line of a script, with its place. -/
structure IsPlace {α : Type} (language : List Char → α → Prop) (cs : List Char) (p : α × ℕ × ℕ) : Prop
    where
  start : AtLineStart (cs.take p.2.1)
  le : p.2.1 ≤ p.2.2
  value : ∃ text, language text p.1

section Places

variable {α : Type} {find? : List Char → Option (Match α)} {language : List Char → α → Prop}
  {cs front raw rest : List Char} {ps : List (Piece α)} {p : α × ℕ × ℕ}

lemma isPlace_of_later (hraw : (∃ l, raw = l ++ ['\n']) ∨ ps = [])
    (hlater : ∀ {front}, AtLineStart front → p ∈ found front.length ps →
      IsPlace language (front ++ rest) p)
    (h : p ∈ found (front.length + raw.length) ps) : IsPlace language (front ++ (raw ++ rest)) p := by
  rcases hraw with ⟨l, rfl⟩ | rfl
  · rw [← List.append_assoc]
    rw [← List.length_append] at h
    exact hlater (.inr ⟨front ++ l, (List.append_assoc _ _ _).symm⟩) h
  · cases h

lemma splitLine_closed (cs : List Char) :
    (∃ l, (splitLine cs).1 = l ++ ['\n']) ∨ pieces find? (splitLine cs).2 = [] := by
  rcases splitLine_cases cs with ⟨l, -, hl⟩ | ⟨-, hl⟩
  · exact .inl ⟨l, hl⟩
  · exact .inr (by rw [hl, pieces])

lemma isPlace_of_found (hfind : EndsLines find? language) (hfront : AtLineStart front)
    (h : p ∈ found front.length (pieces find? cs)) : IsPlace language (front ++ cs) p := by
  fun_induction pieces find? cs generalizing front with
  | case1 => cases h
  | case2 c rest m hm _ ih =>
    obtain ⟨text, ending, htext, hend, hraw, hcs⟩ := hfind.shape _ m hm
    rw [found, List.mem_cons] at h
    rcases h with rfl | h
    · exact ⟨by rwa [List.take_left], Nat.le_add_right _ _, text, htext⟩
    · rw [hcs, ← List.append_assoc text, ← hraw]
      refine isPlace_of_later (hend.imp (fun he => ⟨text, by rw [hraw, he]⟩) fun he => ?_) ih h
      rw [he.2, pieces]
  | case3 c rest m hm hlt ih =>
    rw [← splitLine_append (c :: rest)]
    exact isPlace_of_later (splitLine_closed _) ih h
  | case4 c rest hm ih =>
    rw [← splitLine_append (c :: rest)]
    exact isPlace_of_later (splitLine_closed _) ih h

lemma isPlace (hfind : EndsLines find? language) (h : p ∈ found 0 (pieces find? cs)) :
    IsPlace language cs p :=
  show IsPlace language ([] ++ cs) p from isPlace_of_found hfind (.inl rfl) h

end Places

section Spans

variable {framework : Framework} {weights : Table WeightedImport} {code : String}
  {k : WeightedImport × Span} {spans : List Span} {cs : List Char}

lemma knownSpan?_eq_some {name source : String} {span : Span}
    (h : knownSpan? weights name source span = some k) : k.1 ∈ weights.map (·.2) ∧ k.2 = span := by
  rw [knownSpan?] at h
  split at h
  · rename_i i hi
    obtain ⟨-, h⟩ := Option.ite_none_right_eq_some.1 h
    cases h
    exact ⟨List.mem_map_of_mem (Table.mem_of_get? hi), rfl⟩
  · cases h

lemma importSpans_atLine (h : k ∈ importSpans framework weights code) :
    k.1 ∈ weights.map (·.2) ∧ k.2.IsAtLine code.toList := by
  obtain ⟨⟨s, first, last⟩, hs, hk⟩ := List.mem_filterMap.1 h
  obtain ⟨⟨v, place⟩, hplace, hv⟩ := List.mem_filterMap.1 hs
  obtain ⟨s, rfl, hv⟩ := Option.map_eq_some_iff.1 hv
  cases hv
  obtain ⟨name, -, hk⟩ := Option.bind_eq_some_iff.1 hk
  obtain ⟨hmem, hspan⟩ := knownSpan?_eq_some hk
  obtain ⟨hstart, hle, text, shape, clause, hshape, hst, -⟩ := isPlace importAt?_endsLines hplace
  exact ⟨hmem, hspan ▸ ⟨hstart, hle, (Statement.isRead_of_shape hshape hst.symm).indent⟩⟩

lemma lazySpans_atLine (h : k ∈ lazySpans weights code) :
    k.1 ∈ weights.map (·.2) ∧ k.2.IsAtLine code.toList := by
  obtain ⟨⟨l, first, last⟩, hplace, hk⟩ := List.mem_filterMap.1 h
  obtain ⟨hmem, hspan⟩ := knownSpan?_eq_some hk
  obtain ⟨hstart, hle, text, w, hw, rfl, -⟩ := isPlace lazyLineAt?_endsLines hplace
  exact ⟨hmem, hspan ▸ ⟨hstart, hle, hw.indent⟩⟩

lemma primitiveSpans_atLine {s : Span} (h : s ∈ primitiveSpans framework code) :
    s.IsAtLine code.toList := by
  rw [primitiveSpans] at h
  split at h
  · cases h
  · rename_i text htext
    obtain ⟨cs, hcs, -⟩ := primitive?_head htext
    obtain ⟨⟨indent, first, last⟩, hplace, rfl⟩ := List.mem_map.1 h
    obtain ⟨hstart, hle, -, margin, hindent, -⟩ := isPlace (textLineAt?_endsLines hcs rfl) hplace
    exact ⟨hstart, hle, hindent⟩

lemma take_removeSpans {m : ℕ} (hspans : ∀ s ∈ spans, m ≤ s.first ∧ s.first ≤ s.last) :
    (removeSpans cs spans).take m = cs.take m := by
  induction spans with
  | nil => rfl
  | cons s rest ih =>
    obtain ⟨⟨hm, hle⟩, hrest⟩ := List.forall_mem_cons.1 hspans
    rw [← ih hrest, removeSpans, List.foldr_cons, ← removeSpans]
    generalize removeSpans cs rest = left
    rcases Nat.lt_or_ge left.length s.first with hshort | hlong
    · rw [List.take_of_length_le hshort.le, List.drop_of_length_le (by omega), List.append_nil]
    · rw [List.take_append_of_le_length (by simp [hm, hlong]), List.take_take, Nat.min_eq_left hm]

lemma count_removeSpans (hspans : ∀ s ∈ spans, s.IsAtLine cs)
    (hsorted : spans.Pairwise fun a b => a.first ≤ b.first) :
    n.count (removeSpans cs spans) ≤ n.count cs := by
  induction spans with
  | nil => exact le_rfl
  | cons s rest ih =>
    obtain ⟨hs, hrest⟩ := List.forall_mem_cons.1 hspans
    obtain ⟨hfirst, hsorted⟩ := List.pairwise_cons.1 hsorted
    have htake : (removeSpans cs rest).take s.first = cs.take s.first :=
      take_removeSpans fun t ht => ⟨hfirst t ht, (hrest t ht).le⟩
    refine le_trans ?_ (ih hrest hsorted)
    rw [removeSpans, List.foldr_cons, ← removeSpans]
    generalize removeSpans cs rest = left at htake
    have hstart : AtLineStart (left.take s.first) := htake ▸ hs.start
    have hlast : left.drop s.last <:+ left.drop s.first := by
      rw [← Nat.add_sub_cancel' hs.le, ← List.drop_drop]
      exact List.drop_suffix _ _
    calc n.count (left.take s.first ++ left.drop s.last)
        = n.count (left.take s.first) + n.count (left.drop s.last) :=
          Needle.count_append_of_atLineStart hstart _
      _ ≤ n.count (left.take s.first) + n.count (left.drop s.first) :=
          Nat.add_le_add_left (occurrences_le_of_isInfix hlast.isInfix) _
      _ = n.count left := by
          rw [← Needle.count_append_of_atLineStart hstart, List.take_append_drop]

end Spans

/-! The block of imports that comes in their place. -/

section Blocks

variable {framework : Framework} {threshold : Number} {i : WeightedImport} {l : String}
  {imports : List WeightedImport} {weights : Table WeightedImport} {code out : String}

/-- An import has no needle of its own. -/
structure WeightedImport.Avoids (n : Needle) (i : WeightedImport) : Prop where
  name : '/' ∉ i.name.toList
  source : n.Avoids i.source.toList

lemma WeightedImport.Avoids.line (h : i.Avoids n) (opening between closing : String)
    (hopening : opening.toList.all isPlain = true) (hbetween : isGap between.toList = true)
    (hstop : closing.toList.head?.all isStop = true) (hclosing : '/' ∉ closing.toList) :
    n.Avoids (opening ++ i.name ++ between ++ i.source ++ closing).toList := by
  have hname : n.Avoids i.name.toList := Needle.avoids_of_notMem_slash h.name
  have hjoined := (hname.joined hbetween h.source).preceded hopening
  rw [← String.append_assoc, ← String.append_assoc] at hjoined
  rw [String.toList_append]
  exact hjoined.append (Needle.avoids_of_notMem_slash hclosing)
    (Needle.apart_of_stop ((Option.all_eq_true _ _).1 hstop))

lemma avoids_eagerLine (h : i.Avoids n) : n.Avoids (eagerLine framework i).toList := by
  cases framework with
  | angular => exact h.line "import \x7b " " \x7d from '" "';" (by decide) (by decide) (by decide) (by decide)
  | _ => exact h.line "import " " from '" "';" (by decide) (by decide) (by decide) (by decide)

lemma avoids_lazyLine (h : i.Avoids n) : n.Avoids (lazyLine framework i).toList := by
  have hconst : "const ".toList.all isPlain = true := by decide
  rw [lazyLine.eq_def]
  cases framework with
  | react =>
    have hline := h.line "const " " = lazy(() => import('" "'));" hconst (by decide) (by decide) (by decide)
    simpa [String.append_assoc] using hline
  | vue =>
    have hline := h.line "const " " = defineAsyncComponent(() => import('" "'));" hconst (by decide)
      (by decide) (by decide)
    simpa [String.append_assoc] using hline
  | angular =>
    have hclosing : '/' ∉ ("').then((module) => module." ++ i.name ++ ");").toList := by
      simp [h.name]
    have hline := h.line "const " " = () => import('" ("').then((module) => module." ++ i.name ++ ");")
      hconst (by decide) (by simp; decide) hclosing
    simpa [String.append_assoc] using hline
  | html =>
    have hline := h.line "const " " = () => import('" "').then((module) => module.default);" hconst
      (by decide) (by decide) (by decide)
    simpa [String.append_assoc] using hline

lemma avoids_blockLines (himports : ∀ i ∈ imports, i.Avoids n) :
    ∀ l ∈ blockLines framework threshold imports, n.Avoids l.toList := by
  have hprimitive : ∀ text ∈ primitive? framework, '/' ∉ text.toList := by
    cases framework <;> simp [primitive?]
  intro l hl
  rcases List.mem_append.1 hl with hl | hl
  · split_ifs at hl
    · cases hl
    · exact Needle.avoids_of_notMem_slash (hprimitive l (Option.mem_toList.1 hl))
  · obtain ⟨i, hi, rfl⟩ := List.mem_map.1 hl
    have hi := himports i ((List.mergeSort_perm _ _).mem_iff.1 hi)
    split_ifs
    · exact avoids_eagerLine hi
    · exact avoids_lazyLine hi

lemma count_flatten_append {ls : List (List Char)}
    (h : ∀ l ∈ ls, n.Avoids l ∧ AtLineStart l) (cs : List Char) :
    n.count (ls.flatten ++ cs) = n.count cs := by
  induction ls with
  | nil => rfl
  | cons l rest ih =>
    obtain ⟨⟨hl, hlast⟩, hrest⟩ := List.forall_mem_cons.1 h
    rw [List.flatten_cons, List.append_assoc, Needle.count_append_of_atLineStart hlast,
      Needle.count_eq_zero_iff.2 hl, ih hrest, Nat.zero_add]

lemma count_block {indent : List Char} (hindent : ∀ c ∈ indent, isMargin c)
    (himports : ∀ i ∈ imports, i.Avoids n) (cs : List Char) :
    n.count ((block framework threshold (String.ofList indent) imports).toList ++ cs) = n.count cs := by
  have hplain : ∀ c ∈ indent, isPlain c = true := by
    intro c hc
    have hcases : c = ' ' ∨ c = '\t' := by simpa [isMargin] using hindent c hc
    rcases hcases with rfl | rfl <;> decide
  rw [flatten_blockLines]
  refine count_flatten_append (List.forall_mem_map.2 fun l hl => ⟨?_, .inr ⟨indent ++ l.toList, ?_⟩⟩) cs
  · have hl := avoids_blockLines himports l hl
    exact Needle.leads_of_plain hplain _ (hl.append_stop (by decide) (n.avoids_singleton _))
  · rw [blockLine, List.append_assoc]

lemma mem_of_mem_distinct (h : i ∈ distinct imports) : i ∈ imports := by
  induction imports using List.reverseRecOn with
  | nil => cases h
  | append_singleton imports j ih =>
    rw [distinct_concat] at h
    split_ifs at h
    · exact List.mem_append_left _ (ih h)
    · exact (List.mem_append.1 h).elim (fun h => List.mem_append_left _ (ih h))
        (List.mem_append_right _)

/-- Regrouping does not bring the needle into a script whose components do not have it. -/
lemma count_regroupLoading {threshold : Except Fault Number} (hweights : ∀ e ∈ weights, e.2.Avoids n)
    (h : regroupLoading framework threshold weights code = .ok out) :
    n.count out.toList ≤ n.count code.toList := by
  have hknown : ∀ k ∈ importSpans framework weights code ++ lazySpans weights code,
      k.1.Avoids n ∧ k.2.IsAtLine code.toList := by
    have hmem {i : WeightedImport} (hi : i ∈ weights.map (·.2)) : i.Avoids n := by
      obtain ⟨e, he, rfl⟩ := List.mem_map.1 hi
      exact hweights e he
    intro k hk
    rcases List.mem_append.1 hk with hk | hk
    · exact ⟨hmem (importSpans_atLine hk).1, (importSpans_atLine hk).2⟩
    · exact ⟨hmem (lazySpans_atLine hk).1, (lazySpans_atLine hk).2⟩
  rw [regroupLoading] at h
  generalize importSpans framework weights code ++ lazySpans weights code = known at h hknown
  have hspans : ∀ s ∈ known.map (·.2) ++ primitiveSpans framework code, s.IsAtLine code.toList := by
    refine List.forall_mem_append.2 ⟨List.forall_mem_map.2 fun k hk => (hknown k hk).2, ?_⟩
    exact fun s hs => primitiveSpans_atLine hs
  have hsorted := pairwise_mergeSort (known.map (·.2) ++ primitiveSpans framework code)
  have hall : ∀ s ∈ (known.map (·.2) ++ primitiveSpans framework code).mergeSort fun a b =>
      a.first ≤ b.first, s.IsAtLine code.toList :=
    fun s hs => hspans s ((List.mergeSort_perm _ _).mem_iff.1 hs)
  generalize (known.map (·.2) ++ primitiveSpans framework code).mergeSort (fun a b =>
    a.first ≤ b.first) = spans at h hsorted hall
  cases spans with
  | nil =>
    cases h
    exact le_rfl
  | cons s rest =>
    dsimp only at h
    split_ifs at h
    · cases h
      exact le_rfl
    · obtain ⟨threshold, -, h⟩ := bind_eq_ok_iff.1 h
      cases h
      have hs := hall s List.mem_cons_self
      have htake : (removeSpans code.toList (s :: rest)).take s.first = code.toList.take s.first :=
        take_removeSpans fun t ht => ⟨by
          rcases List.mem_cons.1 ht with rfl | ht
          · exact le_rfl
          · exact (List.pairwise_cons.1 hsorted).1 t ht, (hall t ht).le⟩
      have hstart := htake ▸ hs.start
      have himports : ∀ i ∈ distinct (known.map (·.1)), i.Avoids n := fun i hi => by
        obtain ⟨k, hk, rfl⟩ := List.mem_map.1 (mem_of_mem_distinct hi)
        exact (hknown k hk).1
      refine le_trans (le_of_eq ?_) (count_removeSpans hall hsorted)
      rw [String.toList_ofList, List.append_assoc, Needle.count_append_of_atLineStart hstart,
        count_block hs.indent himports, ← Needle.count_append_of_atLineStart hstart, List.take_append_drop]

end Blocks

end ViewWriter.Script

namespace ViewWriter

open ViewWriter.Text ViewWriter.Script

section Files

variable {n : Needle} {config : Config} {framework : Framework} {imports : List WeightedImport}
  {lazy : Json} {extension script out : String} {code smaller : Code} {main : Artifact}

lemma mem_byName {e : String × WeightedImport} (h : e ∈ Optimize.byName imports) : e.2 ∈ imports := by
  rcases Table.mem_of_mem_merge h with h | h
  · cases h
  · obtain ⟨i, hi, rfl⟩ := List.mem_map.1 h
    exact hi

/-- A script that shares no blocks has a needle no more often when it is made smaller. -/
lemma count_mainScript (himports : ∀ i ∈ imports, i.Avoids n)
    (hextension : (extension == "jsx" || extension == "tsx") = false)
    (h : Optimize.mainScript config framework imports lazy extension script = .ok out) :
    n.count out.toList ≤ n.count script.toList := by
  rw [mainScript_eq] at h
  obtain ⟨used, hused, h⟩ := bind_eq_ok_iff.1 h
  obtain ⟨loaded, hloaded, h⟩ := bind_eq_ok_iff.1 h
  rw [hextension] at h
  cases h
  obtain ⟨preserve, -, rfl⟩ := exists_imports_eq hused
  refine le_trans ?_ (count_withoutUnused preserve script)
  split_ifs at hloaded
  · exact count_regroupLoading (fun e he => himports _ (mem_byName he)) hloaded
  · cases hloaded
    exact le_rfl

lemma exists_smallerMain (h : Optimize.code config imports lazy code = .ok smaller)
    {others : Table Artifact} (hmain : code.files = ("main", main) :: others) : ∃ content,
      Optimize.mainScript config code.framework imports lazy (lower main.extension) main.content =
        .ok content ∧
      smaller.files.get? "main" = some { main with content } := by
  obtain ⟨files, hfiles, h⟩ := bind_eq_ok_iff.1 h
  cases h
  rw [hmain, List.mapM_cons] at hfiles
  obtain ⟨e, he, hfiles⟩ := bind_eq_ok_iff.1 hfiles
  obtain ⟨rest, -, hfiles⟩ := bind_eq_ok_iff.1 hfiles
  cases hfiles
  obtain ⟨a, ha, he⟩ := bind_eq_ok_iff.1 he
  cases he
  rw [artifact_eq] at ha
  obtain ⟨content, hcontent, ha⟩ := bind_eq_ok_iff.1 ha
  cases ha
  exact ⟨content, hcontent, by rw [Table.get?_cons, if_pos rfl]⟩

end Files

end ViewWriter
