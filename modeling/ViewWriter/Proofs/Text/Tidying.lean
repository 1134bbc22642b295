import ViewWriter.Proofs.Text.Pieces
import ViewWriter.Text.Lines

/-! What tidying a text keeps: every line that is not blank, without the white space at its end. -/

namespace ViewWriter.Text

/-- The end of a text is the start of a line. -/
def AtLineStart (cs : List Char) : Prop := cs = [] ∨ ∃ ds, cs = ds ++ ['\n']

section Lines

variable {cs ds l p : List Char}

lemma lines_break (cs ds : List Char) : lines (cs ++ '\n' :: ds) = lines cs ++ lines ds := by
  induction cs with
  | nil => rfl
  | cons c cs ih =>
    simp only [lines] at ih ⊢
    rw [List.cons_append, splitOn, splitOn, ih]
    split_ifs
    · rfl
    · cases hcs : splitOn '\n' cs with
      | nil => exact absurd hcs (splitOn_ne_nil '\n' cs)
      | cons piece pieces => rfl

lemma lines_of_notMem (h : '\n' ∉ cs) : lines cs = [cs] := splitOn_of_notMem h

lemma exists_line (hcs : AtLineStart cs) (hp : '\n' ∉ p) (ds : List Char) :
    ∃ l ∈ lines (cs ++ (p ++ ds)), p <+: l := by
  have hfirst : ∃ l ∈ lines (p ++ ds), p <+: l := by
    rcases stop_cases (· != '\n') ds with hall | ⟨before, c, after, rfl, hbefore, hc⟩
    · have hnot : '\n' ∉ p ++ ds := by
        rw [List.mem_append, not_or]
        exact ⟨hp, fun h => by simpa using hall '\n' h⟩
      exact ⟨p ++ ds, by rw [lines_of_notMem hnot]; simp, List.prefix_append p ds⟩
    · obtain rfl : c = '\n' := by simpa using hc
      have hnot : '\n' ∉ p ++ before := by
        rw [List.mem_append, not_or]
        exact ⟨hp, fun h => by simpa using hbefore '\n' h⟩
      refine ⟨p ++ before, ?_, List.prefix_append p before⟩
      rw [← List.append_assoc, lines_break, lines_of_notMem hnot]
      simp
  rcases hcs with rfl | ⟨before, rfl⟩
  · exact hfirst
  · obtain ⟨l, hl, hprefix⟩ := hfirst
    refine ⟨l, ?_, hprefix⟩
    rw [List.append_assoc, List.singleton_append, lines_break]
    exact List.mem_append_right _ hl

end Lines

section Tidying

variable {cs l p : List Char}

lemma prefix_trimEnd {c : Char} (hc : isBlank c = false) (h : p ++ [c] <+: l) :
    p ++ [c] <+: trimEnd isBlank l := by
  obtain ⟨more, rfl⟩ := h
  rw [trimEnd_eq_rdropWhile, List.rdropWhile, List.append_assoc, List.singleton_append,
    List.reverse_append, List.reverse_cons, List.append_assoc, List.singleton_append,
    dropWhile_append_stop hc]
  simp

lemma mem_collapse {ls : List (List Char)} (h : l ∈ ls) (hne : l ≠ []) (afterEmpty : Bool) :
    l ∈ collapse afterEmpty ls := by
  induction ls generalizing afterEmpty with
  | nil => cases h
  | cons first ls ih =>
    rw [collapse]
    rcases List.mem_cons.1 h with rfl | h
    · rw [if_neg (by simpa using hne)]
      exact List.mem_cons_self
    · split_ifs
      · exact ih h true
      · exact List.mem_cons_of_mem _ (ih h true)
      · exact List.mem_cons_of_mem _ (ih h false)

lemma mem_of_mem_collapse {ls : List (List Char)} {afterEmpty : Bool}
    (h : l ∈ collapse afterEmpty ls) : l = [] ∨ l ∈ ls := by
  induction ls generalizing afterEmpty with
  | nil => cases h
  | cons first ls ih =>
    rw [collapse] at h
    split_ifs at h
    · exact (ih h).imp id (List.mem_cons_of_mem _)
    · rcases List.mem_cons.1 h with rfl | h
      · exact .inl rfl
      · exact (ih h).imp id (List.mem_cons_of_mem _)
    · rcases List.mem_cons.1 h with rfl | h
      · exact .inr List.mem_cons_self
      · exact (ih h).imp id (List.mem_cons_of_mem _)

lemma notMem_collapse (cs : List Char) :
    ∀ l ∈ collapse false ((lines cs).map (trimEnd isBlank)), '\n' ∉ l := by
  intro l hl
  rcases mem_of_mem_collapse hl with rfl | hl
  · exact List.not_mem_nil
  · obtain ⟨m, hm, rfl⟩ := List.mem_map.1 hl
    have hnot : '\n' ∉ m := notMem_of_splitOn hm
    rw [trimEnd_eq_rdropWhile]
    exact fun hbreak => hnot ((List.rdropWhile_prefix _ m).subset hbreak)

lemma mem_lines_after {margin : List Char} (hm : ∀ c ∈ margin, c = '\n') (hne : l ≠ [])
    (h : l ∈ lines (margin ++ cs)) : l ∈ lines cs := by
  induction margin with
  | nil => exact h
  | cons c margin ih =>
    obtain rfl := hm c List.mem_cons_self
    have hbreak : lines ('\n' :: (margin ++ cs)) = [] :: lines (margin ++ cs) :=
      lines_break [] (margin ++ cs)
    rw [List.cons_append, hbreak, List.mem_cons] at h
    exact ih (fun d hd => hm d (List.mem_cons_of_mem _ hd)) (h.resolve_left hne)

lemma mem_lines_before {tail : List Char} (ht : ∀ c ∈ tail, c = '\n') (hne : l ≠ [])
    (h : l ∈ lines (cs ++ tail)) : l ∈ lines cs := by
  cases tail with
  | nil => rwa [List.append_nil] at h
  | cons c tail =>
    obtain rfl := ht c List.mem_cons_self
    rw [lines_break, List.mem_append] at h
    refine h.resolve_right fun hrest => hne ?_
    have hnil : l ∈ lines [] := mem_lines_after (fun d hd => ht d (List.mem_cons_of_mem _ hd)) hne
      (by rwa [List.append_nil])
    exact List.mem_singleton.1 hnil

lemma lines_unlines {ls : List (List Char)} (hne : ls ≠ []) (h : ∀ l ∈ ls, '\n' ∉ l) :
    lines (unlines ls) = ls := splitOn_joinWith hne h

lemma mem_lines_trim (hne : l ≠ []) (h : l ∈ lines cs) : l ∈ lines (trim (· == '\n') cs) := by
  obtain ⟨margin, tail, hcs, hmargin, htail⟩ := exists_trim (· == '\n') cs
  rw [hcs] at h
  exact mem_lines_after (by simpa using hmargin) hne (mem_lines_before (by simpa using htail) hne h)

lemma mem_lines_tidy (h : l ∈ lines cs) (hne : trimEnd isBlank l ≠ []) :
    trimEnd isBlank l ∈ lines (tidyChars cs) := by
  have hkept : trimEnd isBlank l ∈ collapse false ((lines cs).map (trimEnd isBlank)) :=
    mem_collapse (List.mem_map_of_mem h) hne false
  rw [← lines_unlines (List.ne_nil_of_mem hkept) (notMem_collapse cs)] at hkept
  have htrim := mem_lines_trim hne hkept
  rw [tidyChars]
  split
  · rename_i hnil
    rwa [hnil] at htrim
  · rw [lines_break]
    exact List.mem_append_left _ htrim

/-- A line of a tidied text starts with what stood at the start of a line before. -/
lemma exists_line_tidy {c : Char} (hc : isBlank c = false) (hcs : AtLineStart cs)
    (hp : '\n' ∉ p ++ [c]) (ds : List Char) :
    ∃ l ∈ lines (tidyChars (cs ++ (p ++ [c] ++ ds))), p ++ [c] <+: l := by
  obtain ⟨l, hl, hprefix⟩ := exists_line hcs hp ds
  have htrim := prefix_trimEnd hc hprefix
  refine ⟨_, mem_lines_tidy hl fun hnil => ?_, htrim⟩
  rw [hnil, List.prefix_nil] at htrim
  simp at htrim

end Tidying

end ViewWriter.Text
