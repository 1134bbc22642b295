import ViewWriter.Proofs.Text.Spacing
import ViewWriter.Proofs.Text.Tidying

/-! Blocks of lines with an empty line after each of them. Tidying leaves the blocks as they are and
drops the last of the empty lines. -/

namespace ViewWriter.Text

/-- A line that tidying leaves as it is. -/
structure IsSolid (l : List Char) : Prop where
  unbroken : '\n' ∉ l
  last : ∃ before c, l = before ++ [c] ∧ isBlank c = false

/-- A text without line breaks at its ends. -/
structure IsFramed (cs : List Char) : Prop where
  first : ∃ c after, cs = c :: after ∧ c ≠ '\n'
  last : ∃ before c, cs = before ++ [c] ∧ c ≠ '\n'

/-- Lines with a break after each of them, and then an empty line. -/
def blockText (ls : List (List Char)) : List Char := ls.flatMap (· ++ ['\n']) ++ ['\n']

/-- A line of the text begins with `start`. -/
def HasLine (content start : String) : Prop := ∃ l ∈ lines content.toList, start.toList <+: l

instance (content start : String) : Decidable (HasLine content start) :=
  inferInstanceAs (Decidable (∃ l ∈ lines content.toList, start.toList <+: l))

/-- A line of the text has `part` in it. -/
def LineHas (content part : String) : Prop := ∃ l ∈ lines content.toList, part.toList <:+: l

section Framed

variable {cs ds sep : List Char} {pieces : List (List Char)}

lemma IsFramed.around (hcs : IsFramed cs) (sep : List Char) (hds : IsFramed ds) :
    IsFramed (cs ++ (sep ++ ds)) := by
  obtain ⟨c, after, rfl, hc⟩ := hcs.first
  obtain ⟨before, d, rfl, hd⟩ := hds.last
  exact ⟨⟨c, _, rfl, hc⟩, ⟨c :: after ++ (sep ++ before), d, by simp, hd⟩⟩

lemma framed_joinWith (hne : pieces ≠ []) (h : ∀ piece ∈ pieces, IsFramed piece) :
    IsFramed (joinWith sep pieces) := by
  induction pieces with
  | nil => contradiction
  | cons piece rest ih =>
    have hpiece := h piece List.mem_cons_self
    cases rest with
    | nil => simpa [joinWith] using hpiece
    | cons next rest =>
      rw [joinWith, intercalate_cons_ne (List.cons_ne_nil next rest)]
      exact hpiece.around sep
        (ih (List.cons_ne_nil next rest) fun p hp => h p (List.mem_cons_of_mem _ hp))

lemma IsFramed.trim (h : IsFramed cs) : trim (· == '\n') cs = cs := by
  obtain ⟨c, after, rfl, hc⟩ := h.first
  obtain ⟨before, d, hlast, hd⟩ := h.last
  exact trim_of_ends (p := (· == '\n')) (by simpa using hc) (by simpa using hd) hlast

end Framed

section Solid

variable {l : List Char} {ls : List (List Char)} {blocks : List (List (List Char))}

lemma IsSolid.ne_nil (h : IsSolid l) : l ≠ [] := by
  obtain ⟨before, c, rfl, -⟩ := h.last
  simp

lemma isSolid_iff : IsSolid l ↔ '\n' ∉ l ∧ l.getLast?.any (!isBlank ·) := by
  constructor
  · rintro ⟨hunbroken, before, c, rfl, hc⟩
    exact ⟨hunbroken, by simp [hc]⟩
  · rintro ⟨hunbroken, hlast⟩
    obtain ⟨c, hl, hc⟩ := (Option.any_eq_true _ _).1 hlast
    exact ⟨hunbroken, l.dropLast, c, (List.dropLast_append_getLast? c hl).symm, by simpa using hc⟩

instance : DecidablePred IsSolid := fun _ => decidable_of_iff _ isSolid_iff.symm

lemma IsSolid.prepend (h : IsSolid l) {before : List Char} (hbefore : '\n' ∉ before) :
    IsSolid (before ++ l) := by
  obtain ⟨p, c, hl, hc⟩ := h.last
  exact ⟨notMem_append hbefore h.unbroken, before ++ p, c, by rw [hl, List.append_assoc], hc⟩

lemma IsSolid.trimEnd (h : IsSolid l) : trimEnd isBlank l = l := by
  obtain ⟨before, c, rfl, hc⟩ := h.last
  rw [trimEnd_eq_rdropWhile, List.rdropWhile_concat_neg _ _ _ (by simp [hc])]

lemma IsSolid.framed (h : IsSolid l) : IsFramed l := by
  obtain ⟨c, after, rfl⟩ := List.exists_cons_of_ne_nil h.ne_nil
  refine ⟨⟨c, after, rfl, fun hc => h.unbroken (hc ▸ List.mem_cons_self)⟩, ?_⟩
  obtain ⟨before, d, hlast, hd⟩ := h.last
  refine ⟨before, d, hlast, ?_⟩
  rintro rfl
  exact absurd hd (by decide)

/-- What is solid and stands at the start of a line is the start of a line when all is tidied. -/
lemma hasLine_tidy {start text : String} {before : List Char} (hbefore : AtLineStart before)
    (hstart : IsSolid start.toList) (after : List Char)
    (htext : text.toList = before ++ (start.toList ++ after)) : HasLine (tidy text) start := by
  obtain ⟨p, c, hlast, hc⟩ := hstart.last
  have hunbroken := hstart.unbroken
  rw [hlast] at hunbroken htext
  obtain ⟨l, hl, hprefix⟩ := exists_line_tidy hc hbefore hunbroken after
  refine ⟨l, ?_, hlast ▸ hprefix⟩
  rw [tidy, String.toList_ofList, htext]
  exact hl

lemma hasLine_tidy_iff {text start : String} :
    HasLine (tidy text) start ↔ ∃ l ∈ lines (tidyChars text.toList), start.toList <+: l := by
  rw [HasLine, tidy, String.toList_ofList]

lemma exists_lineStart (cs : List Char) :
    ∃ before rest, cs = before ++ rest ∧ AtLineStart before ∧ '\n' ∉ rest := by
  induction cs using List.reverseRecOn with
  | nil => exact ⟨[], [], rfl, .inl rfl, List.not_mem_nil⟩
  | append_singleton cs c ih =>
    by_cases hc : c = '\n'
    · subst hc
      exact ⟨cs ++ ['\n'], [], by simp, .inr ⟨cs, rfl⟩, List.not_mem_nil⟩
    · obtain ⟨before, rest, rfl, hbefore, hrest⟩ := ih
      refine ⟨before, rest ++ [c], by simp, hbefore, notMem_append hrest ?_⟩
      simpa using Ne.symm hc

lemma lineHas_tidy {part text : String} (hpart : IsSolid part.toList) (before after : List Char)
    (htext : text.toList = before ++ (part.toList ++ after)) : LineHas (tidy text) part := by
  -- with what stands before it on its line, the part begins where a line begins
  obtain ⟨earlier, rest, rfl, hearlier, hrest⟩ := exists_lineStart before
  have hstart : IsSolid (String.ofList (rest ++ part.toList)).toList := by
    rw [String.toList_ofList]
    exact hpart.prepend hrest
  obtain ⟨l, hl, hprefix⟩ : HasLine (tidy text) (String.ofList (rest ++ part.toList)) :=
    hasLine_tidy hearlier hstart after (by simp [htext])
  rw [String.toList_ofList] at hprefix
  exact ⟨l, hl, (List.suffix_append rest _).isInfix.trans hprefix.isInfix⟩

lemma lines_each (h : ∀ l ∈ ls, '\n' ∉ l) (rest : List Char) :
    lines (ls.flatMap (· ++ ['\n']) ++ rest) = ls ++ lines rest := by
  induction ls with
  | nil => rfl
  | cons l ls ih =>
    rw [List.flatMap_cons, List.append_assoc, List.append_assoc, List.singleton_append, lines_break,
      lines_of_notMem (h l List.mem_cons_self), ih fun m hm => h m (List.mem_cons_of_mem _ hm)]
    rfl

lemma lines_blocks (h : ∀ ls ∈ blocks, ∀ l ∈ ls, IsSolid l) :
    lines (blocks.flatMap blockText) = blocks.flatMap (· ++ [[]]) ++ [[]] := by
  induction blocks with
  | nil => rfl
  | cons ls blocks ih =>
    have hls : ∀ l ∈ ls, '\n' ∉ l := fun l hl => (h ls List.mem_cons_self l hl).unbroken
    have hempty : lines ('\n' :: blocks.flatMap blockText) = [] :: lines (blocks.flatMap blockText) :=
      lines_break [] _
    rw [List.flatMap_cons, blockText, List.append_assoc, lines_each hls, List.singleton_append, hempty,
      ih fun ls hls => h ls (List.mem_cons_of_mem _ hls)]
    simp

lemma map_trimEnd (h : ∀ l ∈ ls, l = [] ∨ IsSolid l) : ls.map (trimEnd isBlank) = ls := by
  refine (List.map_congr_left fun l hl => ?_).trans (List.map_id ls)
  rcases h l hl with rfl | hl
  · rfl
  · exact hl.trimEnd

lemma collapse_solid (hne : ls ≠ []) (h : ∀ l ∈ ls, IsSolid l) (afterEmpty : Bool)
    (rest : List (List Char)) : collapse afterEmpty (ls ++ rest) = ls ++ collapse false rest := by
  induction ls generalizing afterEmpty with
  | nil => contradiction
  | cons l ls ih =>
    have hl : ¬ l.isEmpty = true := by simpa using (h l List.mem_cons_self).ne_nil
    rw [List.cons_append, collapse, if_neg hl]
    cases ls with
    | nil => rfl
    | cons m ls =>
      rw [ih (List.cons_ne_nil m ls) fun m hm => h m (List.mem_cons_of_mem _ hm)]
      rfl

lemma collapse_blocks (h : ∀ ls ∈ blocks, ls ≠ [] ∧ ∀ l ∈ ls, IsSolid l) :
    collapse true (blocks.flatMap (· ++ [[]]) ++ [[]]) = blocks.flatMap (· ++ [[]]) := by
  induction blocks with
  | nil => rfl
  | cons ls blocks ih =>
    obtain ⟨hne, hls⟩ := h ls List.mem_cons_self
    have hrest := ih fun ls hls => h ls (List.mem_cons_of_mem _ hls)
    rw [List.flatMap_cons, List.append_assoc, List.append_assoc, collapse_solid hne hls,
      List.singleton_append, collapse, if_pos (by rfl), if_neg Bool.false_ne_true, hrest]
    simp

lemma collapse_false_blocks (hblocks : blocks ≠ [])
    (h : ∀ ls ∈ blocks, ls ≠ [] ∧ ∀ l ∈ ls, IsSolid l) :
    collapse false (blocks.flatMap (· ++ [[]]) ++ [[]]) = blocks.flatMap (· ++ [[]]) := by
  refine Eq.trans ?_ (collapse_blocks h)
  -- only an empty first line would tell the two states apart, and no block begins with one
  cases blocks with
  | nil => contradiction
  | cons ls blocks =>
    obtain ⟨hne, hls⟩ := h ls List.mem_cons_self
    simp only [List.flatMap_cons, List.append_assoc]
    rw [collapse_solid hne hls false, collapse_solid hne hls true]

lemma unlines_blocks (hblocks : blocks ≠ []) (h : ∀ ls ∈ blocks, ls ≠ []) :
    unlines (blocks.flatMap (· ++ [[]])) =
      joinWith ['\n', '\n'] (blocks.map unlines) ++ ['\n'] := by
  have hend {ls : List (List Char)} (hne : ls ≠ []) : unlines (ls ++ [[]]) = unlines ls ++ ['\n'] := by
    rw [unlines, joinWith_append hne (List.cons_ne_nil _ _)]
    simp [joinWith, unlines]
  induction blocks with
  | nil => contradiction
  | cons ls blocks ih =>
    have hls := h ls List.mem_cons_self
    cases blocks with
    | nil => simpa [joinWith] using hend hls
    | cons next blocks =>
      have hrest := ih (List.cons_ne_nil next blocks) fun ls hls => h ls (List.mem_cons_of_mem _ hls)
      have hne : (next :: blocks).flatMap (· ++ [[]]) ≠ [] := by simp
      have hjoin : joinWith ['\n', '\n'] ((ls :: next :: blocks).map unlines) =
          unlines ls ++ (['\n', '\n'] ++ joinWith ['\n', '\n'] ((next :: blocks).map unlines)) :=
        intercalate_cons_ne (by simp)
      rw [List.flatMap_cons, unlines, joinWith_append (by simp) hne, ← unlines, ← unlines, hend hls,
        hrest, hjoin]
      simp only [List.append_assoc, List.cons_append, List.nil_append]

lemma tidyChars_blocks (hblocks : blocks ≠ [])
    (h : ∀ ls ∈ blocks, ls ≠ [] ∧ ∀ l ∈ ls, IsSolid l) :
    tidyChars (blocks.flatMap blockText) = joinWith ['\n', '\n'] (blocks.map unlines) ++ ['\n'] := by
  have hsolid : ∀ l ∈ blocks.flatMap (· ++ [[]]) ++ [[]], l = [] ∨ IsSolid l := by
    intro l hl
    simp only [List.mem_append, List.mem_flatMap, List.mem_singleton] at hl
    rcases hl with ⟨ls, hls, hl | hl⟩ | hl
    · exact .inr ((h ls hls).2 l hl)
    · exact .inl hl
    · exact .inl hl
  have hkept : collapse false ((lines (blocks.flatMap blockText)).map (trimEnd isBlank)) =
      blocks.flatMap (· ++ [[]]) := by
    rw [lines_blocks fun ls hls => (h ls hls).2, map_trimEnd hsolid, collapse_false_blocks hblocks h]
  have hframed : IsFramed (joinWith ['\n', '\n'] (blocks.map unlines)) := by
    refine framed_joinWith (by simpa using hblocks) fun piece hpiece => ?_
    obtain ⟨ls, hls, rfl⟩ := List.mem_map.1 hpiece
    exact framed_joinWith (h ls hls).1 fun l hl => ((h ls hls).2 l hl).framed
  have htrim : trim (· == '\n') (unlines (blocks.flatMap (· ++ [[]]))) =
      joinWith ['\n', '\n'] (blocks.map unlines) := by
    rw [unlines_blocks hblocks fun ls hls => (h ls hls).1, trim_append_end (by simp), hframed.trim]
  obtain ⟨c, after, hbody, -⟩ := hframed.first
  simp only [tidyChars, hkept, htrim, hbody]

end Solid

end ViewWriter.Text
