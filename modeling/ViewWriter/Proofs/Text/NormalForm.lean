import Mathlib.Data.List.Chain
import ViewWriter.Proofs.Text.Tidying
import ViewWriter.Proofs.Traversal

/-! Tidy text as a normal form. Its lines are those of the text before it that have more than white space,
without white space at their ends, and one blank line stands where there were any between two of them. -/

namespace ViewWriter.Text

/-- The lines that have more than white space. -/
def filledLines (ls : List (List Char)) : List (List Char) := ls.filter (!isBlankLine ·)

/-- For each blank line, how many lines with more than white space stand before it. -/
def gaps : List (List Char) → List ℕ
  | [] => []
  | l :: rest => if isBlankLine l then 0 :: gaps rest else (gaps rest).map (· + 1)

/-- A blank line stands between the lines `i` and `j` of those that have more than white space. -/
def Apart (ls : List (List Char)) (i j : ℕ) : Prop := ∃ k ∈ gaps ls, i < k ∧ k ≤ j

instance (ls : List (List Char)) (i j : ℕ) : Decidable (Apart ls i j) :=
  inferInstanceAs (Decidable (∃ k ∈ gaps ls, i < k ∧ k ≤ j))

/-- Lines without those at the start and at the end that are empty. -/
def trimLines (ls : List (List Char)) : List (List Char) :=
  (ls.dropWhile List.isEmpty).rdropWhile List.isEmpty

/-- The lines of tidy text. -/
def tidyLines (ls : List (List Char)) : List (List Char) :=
  trimLines (collapse false (ls.map (trimEnd isBlank)))

/-- Lines with a line break after each. -/
def ended (ls : List (List Char)) : List Char := ls.flatMap (· ++ ['\n'])

structure IsTidy (ls : List (List Char)) : Prop where
  trimmed : ∀ l ∈ ls, trimEnd isBlank l = l
  first : ls.head? ≠ some []
  last : ls.getLast? ≠ some []
  single : ls.IsChain fun l m => l ≠ [] ∨ m ≠ []

variable {l : List Char} {ls ms : List (List Char)} {afterEmpty : Bool} {k : ℕ}

section Breaks

lemma unlines_singleton (l : List Char) : unlines [l] = l := by simp [unlines, joinWith]

lemma unlines_append_singleton (hne : ls ≠ []) (l : List Char) :
    unlines (ls ++ [l]) = unlines ls ++ '\n' :: l := by
  rw [unlines, joinWith_append hne (List.cons_ne_nil l []), List.append_assoc,
    ← unlines, ← unlines, unlines_singleton]
  rfl

lemma dropWhile_unlines (h : ∀ l ∈ ls, '\n' ∉ l) :
    (unlines ls).dropWhile (· == '\n') = unlines (ls.dropWhile List.isEmpty) := by
  induction ls with
  | nil => rfl
  | cons l rest ih =>
    obtain ⟨hl, hrest⟩ := List.forall_mem_cons.1 h
    cases l with
    | nil =>
      rw [List.dropWhile_cons_of_pos rfl, ← ih hrest]
      cases rest with
      | nil => rfl
      | cons m rest => rw [unlines, joinWith, List.intercalate_cons_cons]; rfl
    | cons c l =>
      have hc : c ≠ '\n' := fun heq => hl (heq ▸ List.mem_cons_self)
      rw [List.dropWhile_cons_of_neg (by simp), unlines, joinWith_eq, List.cons_append,
        List.dropWhile_cons_of_neg (by simpa using hc)]

lemma rdropWhile_unlines (h : ∀ l ∈ ls, '\n' ∉ l) :
    (unlines ls).rdropWhile (· == '\n') = unlines (ls.rdropWhile List.isEmpty) := by
  induction ls using List.reverseRecOn with
  | nil => rfl
  | append_singleton ls l ih =>
    obtain ⟨hls, hl⟩ := List.forall_mem_append.1 h
    rcases List.eq_nil_or_concat' l with rfl | ⟨l, c, rfl⟩
    · rw [List.rdropWhile_concat_pos _ _ _ rfl, ← ih hls]
      by_cases hne : ls = []
      · subst hne
        rfl
      · rw [unlines_append_singleton hne, List.rdropWhile_concat_pos _ _ _ rfl]
    · have hc : c ≠ '\n' := by
        rintro rfl
        exact hl (l ++ ['\n']) (List.mem_singleton_self _) (by simp)
      have hends (before : List Char) :
          (before ++ (l ++ [c])).rdropWhile (· == '\n') = before ++ (l ++ [c]) := by
        rw [← List.append_assoc, List.rdropWhile_concat_neg _ _ _ (by simpa using hc)]
      rw [List.rdropWhile_concat_neg _ _ _ (by simp)]
      by_cases hne : ls = []
      · subst hne
        rw [List.nil_append, unlines_singleton]
        exact hends []
      · rw [unlines_append_singleton hne, List.append_cons, hends]

lemma trim_unlines (h : ∀ l ∈ ls, '\n' ∉ l) :
    trim (· == '\n') (unlines ls) = unlines (trimLines ls) := by
  have hkept : ∀ l ∈ ls.dropWhile List.isEmpty, '\n' ∉ l := fun l hl =>
    h l ((List.dropWhile_suffix _).subset hl)
  rw [trim, trimStart, dropWhile_unlines h, trimEnd_eq_rdropWhile, rdropWhile_unlines hkept, trimLines]

lemma ended_eq (hne : ls ≠ []) : ended ls = unlines ls ++ ['\n'] := by
  obtain ⟨l, rest, rfl⟩ := List.exists_cons_of_ne_nil hne
  rw [unlines, joinWith_eq, ended]
  clear hne
  induction rest generalizing l with
  | nil => simp
  | cons m rest ih => rw [List.flatMap_cons, ih]; simp

lemma lines_ended (h : ∀ l ∈ ls, '\n' ∉ l) : lines (ended ls) = ls ++ [[]] := by
  by_cases hne : ls = []
  · subst hne
    rfl
  · rw [ended_eq hne, lines_break, lines_unlines hne h]
    rfl

end Breaks

section Gaps

lemma isBlankLine_eq_isEmpty (l : List Char) : isBlankLine l = (trimEnd isBlank l).isEmpty := by
  rw [Bool.eq_iff_iff, trimEnd_eq_rdropWhile, List.isEmpty_iff, List.rdropWhile_eq_nil_iff, isBlankLine,
    List.all_eq_true]

lemma isBlankLine_trimEnd (l : List Char) : isBlankLine (trimEnd isBlank l) = isBlankLine l := by
  rw [isBlankLine_eq_isEmpty, isBlankLine_eq_isEmpty, trimEnd_eq_rdropWhile, trimEnd_eq_rdropWhile,
    List.rdropWhile_idempotent]

@[simp] lemma isBlankLine_nil : isBlankLine [] = true := rfl

lemma filledLines_cons (l : List Char) (ls : List (List Char)) : filledLines (l :: ls) =
    if isBlankLine l then filledLines ls else l :: filledLines ls := by
  rw [filledLines, List.filter_cons]
  cases isBlankLine l <;> rfl

lemma filledLines_append (ls ms : List (List Char)) :
    filledLines (ls ++ ms) = filledLines ls ++ filledLines ms := List.filter_append ls ms

lemma filledLines_map (ls : List (List Char)) :
    filledLines (ls.map (trimEnd isBlank)) = (filledLines ls).map (trimEnd isBlank) := by
  rw [filledLines, List.filter_map, filledLines]
  exact congrArg _ (List.filter_congr fun l _ => congrArg not (isBlankLine_trimEnd l))

lemma filledLines_of_empty (h : ∀ l ∈ ls, l.isEmpty = true) : filledLines ls = [] := by
  refine List.filter_eq_nil_iff.2 fun l hl => ?_
  rw [List.isEmpty_iff.1 (h l hl)]
  decide

lemma gaps_map (ls : List (List Char)) : gaps (ls.map (trimEnd isBlank)) = gaps ls := by
  induction ls with
  | nil => rfl
  | cons l rest ih => rw [List.map_cons, gaps, gaps, isBlankLine_trimEnd, ih]

lemma gaps_append (ls ms : List (List Char)) :
    gaps (ls ++ ms) = gaps ls ++ (gaps ms).map (· + (filledLines ls).length) := by
  induction ls with
  | nil => simp [gaps, filledLines]
  | cons l rest ih =>
    rw [List.cons_append, gaps, gaps, ih, filledLines_cons]
    split_ifs
    · rfl
    · rw [List.map_append, List.map_map]
      rfl

lemma le_of_mem_gaps (h : k ∈ gaps ls) : k ≤ (filledLines ls).length := by
  induction ls generalizing k with
  | nil => cases h
  | cons l rest ih =>
    rw [gaps] at h
    rw [filledLines_cons]
    split_ifs at h ⊢
    · rcases List.mem_cons.1 h with rfl | h
      · exact Nat.zero_le _
      · exact ih h
    · obtain ⟨n, hn, rfl⟩ := List.mem_map.1 h
      exact Nat.succ_le_succ (ih hn)

lemma mem_gaps_padded {margin tail : List (List Char)} (hm : filledLines margin = [])
    (hpos : 0 < k) (hk : k < (filledLines ls).length) :
    k ∈ gaps (margin ++ ls ++ tail) ↔ k ∈ gaps ls := by
  have hstart : k ∉ gaps margin := fun h => by
    have hle := le_of_mem_gaps h
    rw [hm] at hle
    exact hpos.ne' (Nat.le_zero.1 hle)
  have hend : k ∉ (gaps tail).map (· + (filledLines (margin ++ ls)).length) := fun h => by
    obtain ⟨n, -, hn⟩ := List.mem_map.1 h
    rw [filledLines_append, hm, List.nil_append] at hn
    omega
  rw [gaps_append, List.mem_append, or_iff_left hend, gaps_append, List.mem_append, or_iff_right hstart,
    hm]
  simp

end Gaps

section Collapsing

lemma filledLines_collapse (afterEmpty : Bool) (ls : List (List Char)) :
    filledLines (collapse afterEmpty ls) = filledLines ls := by
  induction ls generalizing afterEmpty with
  | nil => rfl
  | cons l rest ih =>
    rw [collapse, filledLines_cons]
    split_ifs with hl hafter hblank
    · exact ih true
    · exact absurd (by rw [List.isEmpty_iff.1 hl]; rfl) hblank
    · rw [filledLines_cons, if_pos isBlankLine_nil, ih]
    · exact absurd (by rw [List.isEmpty_iff.1 hl]; rfl) ‹¬isBlankLine l = true›
    · rw [filledLines_cons, if_pos ‹_›, ih]
    · rw [filledLines_cons, if_neg ‹_›, ih]

lemma mem_gaps_collapse (hk : afterEmpty = false ∨ 0 < k) :
    k ∈ gaps (collapse afterEmpty ls) ↔ k ∈ gaps ls := by
  induction ls generalizing afterEmpty k with
  | nil => rfl
  | cons l rest ih =>
    rw [collapse]
    split_ifs with hl hafter
    · -- an empty line after another is left out, and its gap is that of the one before it
      have hpos : 0 < k := hk.resolve_left (by simp [hafter])
      rw [ih (.inr hpos), List.isEmpty_iff.1 hl, gaps, if_pos isBlankLine_nil, List.mem_cons]
      exact (or_iff_right hpos.ne').symm
    · rw [List.isEmpty_iff.1 hl, gaps, gaps, if_pos isBlankLine_nil, if_pos isBlankLine_nil,
        List.mem_cons, List.mem_cons]
      rcases Nat.eq_zero_or_pos k with rfl | hpos
      · exact iff_of_true (.inl rfl) (.inl rfl)
      · rw [ih (.inr hpos)]
    · rw [gaps, gaps]
      split_ifs
      · rw [List.mem_cons, List.mem_cons, ih (.inl rfl)]
      · simp only [List.mem_map, ih (.inl rfl)]

lemma isChain_collapse (afterEmpty : Bool) (ls : List (List Char)) :
    (collapse afterEmpty ls).IsChain (fun l m => l ≠ [] ∨ m ≠ []) ∧
      (afterEmpty = true → (collapse afterEmpty ls).head? ≠ some []) := by
  induction ls generalizing afterEmpty with
  | nil => exact ⟨.nil, fun _ h => by cases h⟩
  | cons l rest ih =>
    rw [collapse]
    split_ifs with hl hafter
    · obtain ⟨hchain, hhead⟩ := ih true
      exact ⟨hchain, fun _ => hhead rfl⟩
    · obtain ⟨hchain, hhead⟩ := ih true
      refine ⟨List.isChain_cons.2 ⟨fun m hm => .inr ?_, hchain⟩, fun h => absurd h hafter⟩
      rintro rfl
      exact hhead rfl hm
    · have hne : l ≠ [] := fun h => hl (List.isEmpty_iff.2 h)
      exact ⟨List.isChain_cons.2 ⟨fun _ _ => .inl hne, (ih false).1⟩, fun _ h => hne (by simpa using h)⟩

lemma collapse_eq_self (h : ls.IsChain fun l m => l ≠ [] ∨ m ≠ [])
    (hhead : afterEmpty = true → ls.head? ≠ some []) : collapse afterEmpty ls = ls := by
  induction ls generalizing afterEmpty with
  | nil => rfl
  | cons l rest ih =>
    obtain ⟨hnext, hrest⟩ := List.isChain_cons.1 h
    rw [collapse]
    split_ifs with hl hafter
    · exact absurd (by rw [List.isEmpty_iff.1 hl]; rfl) (hhead hafter)
    · have hl := List.isEmpty_iff.1 hl
      have hnext : rest.head? ≠ some [] := fun hm => (hnext [] hm).elim (· hl) (· rfl)
      rw [ih hrest fun _ => hnext, hl]
    · rw [ih hrest fun h => by cases h]

end Collapsing

section Trimming

lemma exists_trimLines (ls : List (List Char)) : ∃ margin tail, ls = margin ++ trimLines ls ++ tail ∧
    filledLines margin = [] ∧ filledLines tail = [] := by
  refine ⟨ls.takeWhile List.isEmpty, (ls.dropWhile List.isEmpty).rtakeWhile List.isEmpty, ?_,
    filledLines_of_empty fun l => List.mem_takeWhile_imp,
    filledLines_of_empty fun l => List.mem_rtakeWhile_imp⟩
  rw [trimLines, List.append_assoc, List.rdropWhile_append_rtakeWhile, List.takeWhile_append_dropWhile]

lemma filledLines_trimLines (ls : List (List Char)) : filledLines (trimLines ls) = filledLines ls := by
  obtain ⟨margin, tail, hls, hm, ht⟩ := exists_trimLines ls
  have h := congrArg filledLines hls
  rw [filledLines_append, filledLines_append, hm, ht, List.nil_append, List.append_nil] at h
  exact h.symm

lemma mem_gaps_trimLines (hpos : 0 < k) (hk : k < (filledLines ls).length) :
    k ∈ gaps (trimLines ls) ↔ k ∈ gaps ls := by
  obtain ⟨margin, tail, hls, hm, -⟩ := exists_trimLines ls
  rw [← filledLines_trimLines] at hk
  rw [← mem_gaps_padded hm hpos hk, ← hls]

lemma trimLines_isInfix (ls : List (List Char)) : trimLines ls <:+: ls := by
  obtain ⟨margin, tail, hls, -⟩ := exists_trimLines ls
  exact ⟨margin, tail, hls.symm⟩

lemma head?_trimLines (ls : List (List Char)) : (trimLines ls).head? ≠ some [] := by
  intro h
  obtain ⟨tail, htail⟩ := List.rdropWhile_prefix List.isEmpty (ls.dropWhile List.isEmpty)
  have hfirst : (ls.dropWhile List.isEmpty).head? = some [] := by
    rw [← htail, List.head?_append]
    exact congrArg (Option.or · _) h
  have hne := List.head?_dropWhile_not List.isEmpty ls
  rw [hfirst] at hne
  cases hne

lemma getLast?_trimLines (ls : List (List Char)) : (trimLines ls).getLast? ≠ some [] := by
  intro h
  obtain ⟨before, hbefore⟩ := List.getLast?_eq_some_iff.1 h
  have hne : trimLines ls ≠ [] := by simp [hbefore]
  refine List.rdropWhile_last_not _ _ hne ?_
  change ((trimLines ls).getLast hne).isEmpty = true
  simp [hbefore]

end Trimming

section Tidy

lemma mem_of_mem_tidyLines (h : l ∈ tidyLines ls) : l = [] ∨ ∃ m ∈ ls, trimEnd isBlank m = l :=
  (mem_of_mem_collapse ((trimLines_isInfix _).subset h)).imp_right List.mem_map.1

lemma isTidy_tidyLines (ls : List (List Char)) : IsTidy (tidyLines ls) where
  trimmed l hl := by
    rcases mem_of_mem_tidyLines hl with rfl | ⟨m, -, rfl⟩
    · rfl
    · rw [trimEnd_eq_rdropWhile, trimEnd_eq_rdropWhile, List.rdropWhile_idempotent]
  first := head?_trimLines _
  last := getLast?_trimLines _
  single := List.IsChain.infix (isChain_collapse false _).1 (trimLines_isInfix _)

lemma tidyLines_of_isTidy (h : IsTidy ls) : tidyLines (ls ++ [[]]) = ls := by
  have hmap : (ls ++ [[]]).map (trimEnd isBlank) = ls ++ [[]] := by
    rw [List.map_append, map_eq_self h.trimmed]
    rfl
  have hchain : (ls ++ [[]]).IsChain fun l m => l ≠ [] ∨ m ≠ [] := by
    refine List.isChain_append.2 ⟨h.single, List.isChain_singleton _, fun l hl m _ => .inl ?_⟩
    rintro rfl
    exact h.last hl
  rw [tidyLines, hmap, collapse_eq_self hchain fun h => by cases h]
  cases ls with
  | nil => rfl
  | cons l rest =>
    have hl : ¬ l.isEmpty = true := fun hl => h.first (by rw [List.isEmpty_iff.1 hl]; rfl)
    rw [trimLines, List.cons_append, List.dropWhile_cons_of_neg hl, ← List.cons_append,
      List.rdropWhile_concat_pos _ _ _ rfl, List.rdropWhile_eq_self_iff]
    intro hne hlast
    exact h.last (by rw [List.getLast?_eq_some_getLast hne, List.isEmpty_iff.1 hlast])

lemma filledLines_tidyLines (ls : List (List Char)) :
    filledLines (tidyLines ls) = (filledLines ls).map (trimEnd isBlank) := by
  rw [tidyLines, filledLines_trimLines, filledLines_collapse, filledLines_map]

lemma mem_gaps_tidyLines (hpos : 0 < k) (hk : k < (filledLines ls).length) :
    k ∈ gaps (tidyLines ls) ↔ k ∈ gaps ls := by
  rw [tidyLines, mem_gaps_trimLines hpos, mem_gaps_collapse (.inl rfl), gaps_map]
  rwa [filledLines_collapse, filledLines_map, List.length_map]

lemma notMem_tidyLines (cs : List Char) : ∀ l ∈ tidyLines (lines cs), '\n' ∉ l := fun l hl =>
  notMem_collapse cs l ((trimLines_isInfix _).subset hl)

lemma tidyChars_eq (cs : List Char) : tidyChars cs = ended (tidyLines (lines cs)) := by
  rw [tidyChars, trim_unlines (notMem_collapse cs), ← tidyLines]
  cases hls : tidyLines (lines cs) with
  | nil => rfl
  | cons l rest =>
    have hl : l ≠ [] := by
      rintro rfl
      exact (isTidy_tidyLines (lines cs)).first (by rw [hls]; rfl)
    rw [ended_eq (List.cons_ne_nil l rest)]
    split
    · rename_i hnil
      rw [unlines, joinWith_eq] at hnil
      exact absurd (List.append_eq_nil_iff.1 hnil).1 hl
    · rfl

lemma lines_tidy (s : String) : lines (tidy s).toList = tidyLines (lines s.toList) ++ [[]] := by
  rw [tidy, String.toList_ofList, tidyChars_eq, lines_ended (notMem_tidyLines _)]

lemma isBlankLine_of_trimmed (h : trimEnd isBlank l = l) : isBlankLine l = false ↔ l ≠ [] := by
  rw [isBlankLine_eq_isEmpty, h, Bool.eq_false_iff, ne_eq, List.isEmpty_iff]

lemma isBlank_of_trimmed (h : trimEnd isBlank l = l) : ∀ c ∈ l.getLast?, isBlank c = false := by
  intro c hc
  obtain ⟨before, rfl⟩ := List.getLast?_eq_some_iff.1 hc
  rw [trimEnd_eq_rdropWhile, List.rdropWhile_eq_self_iff] at h
  simpa using h (by simp)

/-- Tidy lines make a text that ends with one line break, and begins with a line that is filled. -/
lemma IsTidy.ends (h : IsTidy ls) (hwhole : ∀ l ∈ ls, '\n' ∉ l) (hne : ls ≠ []) :
    (∃ body c, ended ls = body ++ [c, '\n'] ∧ c ≠ '\n') ∧
      ∃ first ∈ ls.head?, isBlankLine first = false := by
  constructor
  · obtain ⟨before, l, rfl⟩ := (List.eq_nil_or_concat' ls).resolve_left hne
    have hl : l ≠ [] := by
      rintro rfl
      exact h.last (by simp)
    obtain ⟨front, c, rfl⟩ := (List.eq_nil_or_concat' l).resolve_left hl
    refine ⟨ended before ++ front, c, by simp [ended], ?_⟩
    rintro rfl
    exact hwhole _ (List.mem_append_right _ (List.mem_singleton_self _)) (by simp)
  · obtain ⟨l, rest, rfl⟩ := List.exists_cons_of_ne_nil hne
    refine ⟨l, rfl, (isBlankLine_of_trimmed (h.trimmed l List.mem_cons_self)).2 ?_⟩
    rintro rfl
    exact h.first rfl

end Tidy

/-- Tidy text is empty, or begins with a line that is filled and ends with one line break. It has no white
space at the ends of lines and no two blank lines in a row. The filled lines of a text are kept without
the white space at their ends, and two of them have a blank line between them if and only if they had one
before. Tidy text stays as it is. -/
theorem tidy_normalForm (s : String) :
    (tidy s = "" ∨
      (∃ body c, (tidy s).toList = body ++ [c, '\n'] ∧ c ≠ '\n') ∧
        ∃ first ∈ (lines (tidy s).toList).head?, isBlankLine first = false) ∧
    (∀ l ∈ lines (tidy s).toList, ∀ c ∈ l.getLast?, isBlank c = false) ∧
    ((lines (tidy s).toList).IsChain fun l m => isBlankLine l = false ∨ isBlankLine m = false) ∧
    filledLines (lines (tidy s).toList) = (filledLines (lines s.toList)).map (trimEnd isBlank) ∧
    (∀ i j, i < j → j < (filledLines (lines s.toList)).length →
      (Apart (lines (tidy s).toList) i j ↔ Apart (lines s.toList) i j)) ∧
    tidy (tidy s) = tidy s := by
  have htidy := isTidy_tidyLines (lines s.toList)
  have hchars : (tidy s).toList = ended (tidyLines (lines s.toList)) := by
    rw [tidy, String.toList_ofList, tidyChars_eq]
  have hwhole := notMem_tidyLines s.toList
  have hfilled := filledLines_tidyLines (lines s.toList)
  have hgaps {k : ℕ} (hpos : 0 < k) : k < (filledLines (lines s.toList)).length →
      (k ∈ gaps (tidyLines (lines s.toList)) ↔ k ∈ gaps (lines s.toList)) := mem_gaps_tidyLines hpos
  have hagain : tidy (tidy s) = tidy s := by
    rw [← String.toList_inj, tidy, String.toList_ofList, tidyChars_eq, lines_tidy,
      tidyLines_of_isTidy htidy, hchars]
  rw [lines_tidy, hchars]
  generalize tidyLines (lines s.toList) = ls at *
  refine ⟨?_, ?_, ?_, ?_, ?_, hagain⟩
  · by_cases hne : ls = []
    · refine .inl (String.toList_inj.1 ?_)
      rw [hchars, hne]
      rfl
    · obtain ⟨hbody, first, hfirst, hblank⟩ := htidy.ends hwhole hne
      exact .inr ⟨hbody, first, by rw [List.head?_append, hfirst]; rfl, hblank⟩
  · refine List.forall_mem_append.2 ⟨fun l hl => isBlank_of_trimmed (htidy.trimmed l hl), ?_⟩
    simp
  · have hblank {l : List Char} (hl : l ∈ ls) := isBlankLine_of_trimmed (htidy.trimmed l hl)
    refine List.isChain_append.2 ⟨?_, List.isChain_singleton _, fun l hl m _ => .inl ?_⟩
    · refine htidy.single.imp_of_mem_imp fun l m hl hm h => ?_
      exact h.imp (hblank hl).2 (hblank hm).2
    · have hmem := List.mem_of_getLast? hl
      refine (hblank hmem).2 ?_
      rintro rfl
      exact htidy.last hl
  · have hend : filledLines [[]] = [] := rfl
    rw [filledLines_append, hfilled, hend, List.append_nil]
  · intro i j hij hj
    refine exists_congr fun k => and_congr_left fun hk => ?_
    have hpos : 0 < k := Nat.zero_lt_of_lt hk.1
    have hlast : k < (filledLines (lines s.toList)).length := Nat.lt_of_le_of_lt hk.2 hj
    rw [← hgaps hpos hlast, ← List.nil_append (ls ++ [[]]), ← List.append_assoc]
    refine mem_gaps_padded rfl hpos ?_
    rwa [hfilled, List.length_map]

def looseText : String := "\n \na\t\n\n  \n\nb\nc \n\n"

theorem tidy_normalForm_looseText : tidy looseText = "a\n\nb\nc\n" ∧
    Apart (lines (tidy looseText).toList) 0 1 ∧ ¬ Apart (lines (tidy looseText).toList) 1 2 := by
  obtain ⟨-, -, -, -, hapart, -⟩ := tidy_normalForm looseText
  have hlast : 2 < (filledLines (lines looseText.toList)).length := by decide +kernel
  refine ⟨by decide +kernel, ?_, ?_⟩
  · rw [hapart 0 1 (by decide) (by omega)]
    decide +kernel
  · rw [hapart 1 2 (by decide) hlast]
    decide +kernel

end ViewWriter.Text
