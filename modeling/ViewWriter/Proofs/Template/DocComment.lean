import ViewWriter.Proofs.Text.Occurrences
import ViewWriter.Template.Helper

/-! Comment blocks. The lines of a text come into its comment as they are, so that a comment ends early
where the text has the end of one. -/

namespace ViewWriter.Text

def commentEnd : List Char := "*/".toList

/-- The number of places where a comment block would end. -/
def commentEnds (cs : List Char) : ℕ := occurrences id commentEnd cs

section Comments

variable {margin cs : List Char}

lemma commentEnd_isUnbroken : IsUnbroken id commentEnd where
  ne_nil := by decide
  blank c hc hm := by
    have hparts : commentEnd.all (!isBlank ·) = true := by decide
    simpa [hc] using List.all_eq_true.1 hparts c hm

lemma commentEnds_eq_zero_iff : commentEnds cs = 0 ↔ ¬ commentEnd <:+: cs := by
  rw [commentEnds, occurrences_eq_zero_iff commentEnd_isUnbroken.ne_nil, List.map_id]

lemma isBlank_spaces (i : ℤ) : ∀ c ∈ spaces i, isBlank c = true := fun c hc => by
  rw [(List.mem_replicate.1 hc).2]
  decide

lemma commentEnds_line (hmargin : ∀ c ∈ margin, isBlank c = true) (l : List Char) :
    commentEnds (trimEnd isBlank (margin ++ " * ".toList ++ l)) = commentEnds l := by
  have hsplit : margin ++ " * ".toList ++ l = (margin ++ " *".toList) ++ ' ' :: l := by simp
  have hmark : commentEnds (margin ++ " *".toList) = 0 := by
    rw [commentEnds, commentEnd_isUnbroken.blanks_append hmargin]
    decide
  rw [commentEnds, commentEnd_isUnbroken.trimEnd, hsplit, commentEnd_isUnbroken.append_blank (by decide),
    ← commentEnds, hmark, Nat.zero_add, ← commentEnds]

/-- A comment block ends where its text has the end of a comment, and at its own end. -/
lemma commentEnds_commentBlock (hmargin : ∀ c ∈ margin, isBlank c = true) (cs : List Char) :
    commentEnds (commentBlock margin cs) = commentEnds cs + 1 := by
  have hmarked (mark : List Char) : commentEnds (margin ++ mark) = commentEnds mark :=
    commentEnd_isUnbroken.blanks_append hmargin mark
  have hlines : ((lines cs).map fun l => commentEnds (trimEnd isBlank (margin ++ " * ".toList ++ l))).sum =
      commentEnds cs := by
    simp only [commentEnds_line hmargin]
    exact commentEnd_isUnbroken.lines cs
  have hopening : commentEnds "/**".toList = 0 := by decide
  have hclosing : commentEnds " */".toList = 1 := by decide
  calc commentEnds (commentBlock margin cs)
      = (((margin ++ "/**".toList) :: (lines cs).map (fun l =>
          trimEnd isBlank (margin ++ " * ".toList ++ l)) ++ [margin ++ " */".toList]).map commentEnds).sum :=
        commentEnd_isUnbroken.unlines _
    _ = commentEnds cs + 1 := by
        simp only [List.map_append, List.map_cons, List.map_nil, List.sum_append, List.sum_cons,
          List.sum_nil, List.map_map, hmarked, hopening, hclosing, Function.comp_def, hlines]
        omega

lemma suffix_unlines (ls : List (List Char)) (l : List Char) : l <:+ unlines (ls ++ [l]) := by
  induction ls with
  | nil => simp [unlines, joinWith]
  | cons first rest ih =>
    rw [List.cons_append, unlines, joinWith, intercalate_cons_ne (by simp), ← joinWith, ← unlines]
    exact ih.trans ((List.suffix_append _ _).trans (List.suffix_append _ _))

lemma suffix_commentBlock (margin cs : List Char) : commentEnd <:+ commentBlock margin cs := by
  rw [commentBlock]
  exact List.IsSuffix.trans ⟨margin ++ [' '], by simp [commentEnd]⟩ (suffix_unlines _ _)

end Comments

end ViewWriter.Text

namespace ViewWriter.Template.Helper

open ViewWriter.Text

/-- A comment for a description ends with the end of a comment, and has it once more for each time that
the description has it. It ends nowhere else exactly if the description does not have it. -/
theorem docComment_ends {description : String} (hgiven : description ≠ "") {width : ℤ}
    (hwidth : width ≤ maxMargin) :
    ∃ c, docComment [.str description, .int width] = .ok (.str c) ∧ commentEnd <:+ c.toList ∧
      commentEnds c.toList = commentEnds description.toList + 1 ∧
      (commentEnds c.toList = 1 ↔ ¬ commentEnd <:+: description.toList) := by
  have hends := commentEnds_commentBlock (isBlank_spaces width) description.toList
  refine ⟨String.ofList (commentBlock (spaces width) description.toList), ?_, ?_, ?_, ?_⟩
  · have hmargin : margin (.int width) = .ok (spaces width) := by
      simp [margin, Json.toInteger, bind, Except.bind, Int.not_lt.2 hwidth]
    rw [docComment, docCommentAt, hmargin]
    exact if_pos (bne_iff_ne.2 hgiven)
  · rw [String.toList_ofList]
    exact suffix_commentBlock _ _
  · rw [String.toList_ofList, hends]
  · rw [String.toList_ofList, hends, ← commentEnds_eq_zero_iff, Nat.add_eq_right]

/-- A description of two lines, the second of which begins with a slash. -/
theorem docComment_ends_twoLines :
    ∃ c, docComment [.str "*\n/", .int 2] = .ok (.str c) ∧ commentEnds c.toList = 1 := by
  obtain ⟨c, hc, -, -, hone⟩ := docComment_ends (show "*\n/" ≠ "" by decide)
    (show (2 : ℤ) ≤ maxMargin by decide)
  exact ⟨c, hc, hone.2 (by decide)⟩

/-- A description that ends its comment early. -/
theorem docComment_ends_early :
    ∃ c, docComment [.str "a */ b"] = .ok (.str c) ∧ commentEnds c.toList = 2 :=
  ⟨"/**\n * a */ b\n */", rfl, by decide⟩

end ViewWriter.Template.Helper
