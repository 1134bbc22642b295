import ViewWriter.Proofs.Script.Inlining

/-! What one round of sharing does to a script: its declaration stands right before the first
export, its name is new, the numbers in use stay and end tags become fewer. -/

namespace ViewWriter.Script

open ViewWriter.Text

/-- The lines that declare a shared block, whatever its body. -/
def IsDeclaration (n : ℕ) (ls : List (List Char)) : Prop :=
  ∃ body, ls = declarationStart n :: (body ++ [declarationEnd, []]) ∧
    ∀ l ∈ body, isFixed l = false

/-- Declarations stand right before the first line that begins an export. -/
def Declared (numbers : List ℕ) (ls : List (List Char)) : Prop :=
  ∃ front declarations, ls.takeWhile (!beginsExport ·) = front ++ declarations.flatten ∧
    List.Forall₂ IsDeclaration numbers declarations

section Exports

lemma isFixed_of_beginsExport {l : List Char} (h : beginsExport l = true) : isFixed l = true := by
  obtain ⟨rest, rfl⟩ := List.isPrefixOf_iff_prefix.1 h
  rfl

lemma beginsExport_of_not_fixed {l : List Char} (h : isFixed l = false) : beginsExport l = false :=
  Bool.eq_false_iff.2 fun he => by simp [isFixed_of_beginsExport he] at h

lemma exists_export {ls : List (List Char)} (h : hasExport ls = true) :
    ∃ front e rest, ls = front ++ e :: rest ∧ (∀ l ∈ front, (!beginsExport l) = true) ∧
      beginsExport e = true := by
  obtain ⟨l, hl, he⟩ := List.any_eq_true.1 h
  rcases stop_cases (!beginsExport ·) ls with hall | ⟨front, e, rest, rfl, hfront, hstop⟩
  · simpa [he] using hall l hl
  · exact ⟨front, e, rest, rfl, hfront, by simpa using hstop⟩

lemma takeWhile_export {front rest : List (List Char)} {e : List Char}
    (hfront : ∀ l ∈ front, (!beginsExport l) = true) (he : beginsExport e = true) :
    (front ++ e :: rest).takeWhile (!beginsExport ·) = front :=
  takeWhile_stop hfront (by simp [he])

lemma beforeExport_eq {front rest : List (List Char)} {e : List Char} (new : List (List Char))
    (hfront : ∀ l ∈ front, (!beginsExport l) = true) (he : beginsExport e = true) :
    beforeExport new (front ++ e :: rest) = front ++ new ++ e :: rest := by
  rw [beforeExport, takeWhile_export hfront he, dropWhile_stop hfront (by simp [he])]

end Exports

section Declarations

variable {n : ℕ} {unit : List Char} {body : List (List Char)}

lemma IsDeclaration.no_export {d : List (List Char)} (h : IsDeclaration n d) :
    ∀ l ∈ d, (!beginsExport l) = true := by
  obtain ⟨body, rfl, hbody⟩ := h
  intro l hl
  simp only [List.mem_cons, List.mem_append, List.not_mem_nil, or_false] at hl
  rcases hl with rfl | hl | rfl | rfl
  · rfl
  · simp [beginsExport_of_not_fixed (hbody l hl)]
  · rfl
  · rfl

lemma isDeclaration_sharedDeclaration (hunit : ∀ c ∈ unit, isMargin c)
    (hbody : ∀ l ∈ body, isFixed l = false) :
    IsDeclaration n (sharedDeclaration unit (sharedName n) body) := by
  refine ⟨body.map (indented unit), rfl, ?_⟩
  intro l hl
  obtain ⟨m, hm, rfl⟩ := List.mem_map.1 hl
  exact indented_not_fixed hunit (hbody m hm)

variable {name : List Char} {k : ℕ} {xs ys : List (List Char)}

lemma Replaced.not_fixed (h : Replaced name body k xs ys) (hx : ∀ l ∈ xs, isFixed l = false) :
    ∀ l ∈ ys, isFixed l = false := by
  intro l hl
  rcases h.mem_right hl with hl | ⟨indent, hi, rfl⟩
  · exact hx l hl
  · exact useLine_not_fixed hi

lemma Replaced.no_export (h : Replaced name body k xs ys)
    (hx : ∀ l ∈ xs, (!beginsExport l) = true) : ∀ l ∈ ys, (!beginsExport l) = true := by
  intro l hl
  rcases h.mem_right hl with hl | ⟨indent, hi, rfl⟩
  · exact hx l hl
  · simp [beginsExport_of_not_fixed (useLine_not_fixed hi)]

lemma Replaced.declarations {numbers : List ℕ} {declarations : List (List (List Char))}
    {front rest : List (List Char)} {e : List Char} (he : isFixed e = true)
    (hd : List.Forall₂ IsDeclaration numbers declarations)
    (h : Replaced name body k (front ++ (declarations.flatten ++ e :: rest)) ys) :
    ∃ i front' declarations' rest', ys = front' ++ (declarations'.flatten ++ e :: rest') ∧
      Replaced name body i front front' ∧ List.Forall₂ IsDeclaration numbers declarations' := by
  induction hd generalizing front k ys with
  | nil =>
    obtain ⟨i, j, front', rest', -, rfl, hfront, -⟩ := h.split he
    exact ⟨i, front', [], rest', rfl, hfront, .nil⟩
  | @cons n d numbers declarations hd _ ih =>
    obtain ⟨inner, rfl, hinner⟩ := hd
    simp only [List.flatten_cons, List.cons_append, List.append_assoc] at h
    obtain ⟨i, j, front', _, -, rfl, hfront, h⟩ := h.split rfl
    obtain ⟨_, j, inner', _, -, rfl, hbody, h⟩ := h.split rfl
    obtain ⟨_, blank, declarations', rest', rfl, hblank, hrest⟩ :=
      ih (show Replaced name body j ([[]] ++ (declarations.flatten ++ e :: rest)) _ from h)
    obtain rfl := hblank.eq_of_short (by simp)
    refine ⟨i, front', _ :: declarations', rest', ?_, hfront,
      .cons ⟨inner', rfl, hbody.not_fixed hinner⟩ hrest⟩
    simp

lemma SharedOnce.declared (hunit : ∀ c ∈ unit, isMargin c) {numbers : List ℕ}
    (h : SharedOnce unit n xs ys) (hx : Declared numbers xs) : Declared (numbers ++ [n]) ys := by
  obtain ⟨hreplaced, hcopies, -, hexports⟩ := h
  rename_i body replaced k
  obtain ⟨_, _, hcopy, -⟩ := hreplaced.exists_copy (by omega)
  obtain ⟨front, declarations, htake, hd⟩ := hx
  obtain ⟨before, e, rest, rfl, hbefore, he⟩ := exists_export hexports
  rw [takeWhile_export hbefore he] at htake
  subst htake
  rw [List.append_assoc] at hreplaced
  obtain ⟨i, front', declarations', rest', rfl, hfront, hd'⟩ :=
    hreplaced.declarations (isFixed_of_beginsExport he) hd
  have hnew : IsDeclaration n (sharedDeclaration unit (sharedName n) body) :=
    isDeclaration_sharedDeclaration hunit fun l hl => hcopy.body_not_fixed hl
  have hall : ∀ l ∈ front' ++ declarations'.flatten, (!beginsExport l) = true := by
    intro l hl
    rcases List.mem_append.1 hl with hl | hl
    · exact hfront.no_export (fun m hm => hbefore m (List.mem_append_left _ hm)) l hl
    · obtain ⟨d, hmem, hl⟩ := List.mem_flatten.1 hl
      obtain ⟨m, -, hdm⟩ := exists_of_mem_right hd' hmem
      exact hdm.no_export l hl
  have hall' : ∀ l ∈ front' ++ (declarations' ++ [sharedDeclaration unit (sharedName n) body]).flatten,
      (!beginsExport l) = true := by
    intro l hl
    rw [List.flatten_append, ← List.append_assoc, List.mem_append] at hl
    rcases hl with hl | hl
    · exact hall l hl
    · exact hnew.no_export l (by simpa using hl)
  refine ⟨front', declarations' ++ [sharedDeclaration unit (sharedName n) body], ?_,
    List.rel_append hd' (.cons hnew .nil)⟩
  rw [← List.append_assoc, beforeExport_eq _ hall he]
  have hflat : front' ++ declarations'.flatten ++ sharedDeclaration unit (sharedName n) body =
      front' ++ (declarations' ++ [sharedDeclaration unit (sharedName n) body]).flatten := by simp
  rw [hflat]
  exact takeWhile_export hall' he

lemma SharedOnce.hasExport (h : SharedOnce unit n xs ys) : hasExport ys = true := by
  obtain ⟨hreplaced, -, -, hexports⟩ := h
  obtain ⟨before, e, rest, rfl, hbefore, he⟩ := exists_export hexports
  obtain ⟨_, _, before', rest', -, rfl, hb, -⟩ := hreplaced.split (isFixed_of_beginsExport he)
  rw [beforeExport_eq _ (hb.no_export hbefore) he]
  simp [Script.hasExport, he]

end Declarations

section Measure

variable {unit : List Char} {n : ℕ} {xs ys : List (List Char)}

lemma countP_beforeExport (p : List Char → Bool) (new ls : List (List Char)) :
    (beforeExport new ls).countP p = ls.countP p + new.countP p := by
  have hsplit := congrArg (List.countP p)
    (List.takeWhile_append_dropWhile (p := (!beginsExport ·)) (l := ls))
  rw [List.countP_append] at hsplit
  rw [beforeExport, List.countP_append, List.countP_append]
  omega

lemma countP_sharedDeclaration (hunit : ∀ c ∈ unit, isMargin c) (body : List (List Char)) :
    (sharedDeclaration unit (sharedName n) body).countP isCloser = body.countP isCloser := by
  have hbody : (body.map (indented unit)).countP isCloser = body.countP isCloser := by
    rw [List.countP_map]
    exact List.countP_congr fun l _ => by
      rw [Function.comp_apply, isCloser_ignoresMargin.of_indented hunit]
  have hstart : isCloser (declarationStart n) = false := rfl
  have hend : [declarationEnd, []].countP isCloser = 0 := rfl
  rw [sharedDeclaration_eq, List.countP_cons, List.countP_append, hbody, hstart, hend]
  rfl

/-- A round leaves fewer end tags. -/
lemma SharedOnce.closers_lt (hunit : ∀ c ∈ unit, isMargin c) (h : SharedOnce unit n xs ys) :
    ys.countP isCloser < xs.countP isCloser := by
  obtain ⟨hreplaced, hcopies, -, -⟩ := h
  rename_i body replaced k
  obtain ⟨_, _, hcopy, -⟩ := hreplaced.exists_copy (by omega)
  rw [countP_beforeExport, countP_sharedDeclaration hunit, hreplaced.closers]
  have hpos := hcopy.closers_pos
  have htwo := Nat.mul_le_mul_right (body.countP isCloser) hcopies
  omega

end Measure

section Numbers

variable {unit : List Char} {n k : ℕ} {body xs ys : List (List Char)}

lemma mem_beforeExport {new ls : List (List Char)} {l : List Char} :
    l ∈ beforeExport new ls ↔ l ∈ ls ∨ l ∈ new := by
  have hsplit : l ∈ ls ↔ l ∈ ls.takeWhile (!beginsExport ·) ∨ l ∈ ls.dropWhile (!beginsExport ·) := by
    rw [← List.mem_append, List.takeWhile_append_dropWhile]
  rw [beforeExport, List.mem_append, List.mem_append, hsplit]
  tauto

lemma mem_sharedDeclaration {l : List Char} :
    l ∈ sharedDeclaration unit (sharedName n) body ↔
      l = declarationStart n ∨ (∃ m ∈ body, indented unit m = l) ∨ l = declarationEnd ∨ l = [] := by
  simp [sharedDeclaration_eq]

lemma sharedNumbers_of_blank (b : Option Char) {l : List Char} (h : isBlankLine l = true) :
    sharedNumbers b l = [] := by
  induction l generalizing b with
  | nil => rfl
  | cons c rest ih =>
    simp only [isBlankLine, List.all_cons, Bool.and_eq_true] at h
    have hc : 'S' ≠ c := by
      rintro rfl
      exact absurd h.1 (by decide)
    have hstrip : stripPrefix? sharedStem (c :: rest) = none := if_neg hc
    rw [sharedNumbers_cons, numberHere, hstrip, ih _ h.2]
    rfl

lemma sharedNumbers_ignoresMargin : IgnoresMargin (sharedNumbers none) where
  margin _ l h := sharedNumbers_margin h l
  blank l h := by rw [sharedNumbers_of_blank none h, sharedNumbers_of_blank none rfl]

lemma SharedOnce.keeps (hunit : ∀ c ∈ unit, isMargin c) (h : SharedOnce unit n xs ys)
    {l digits : List Char} (hl : l ∈ xs) (hd : digits ∈ Script.sharedNumbers none l) :
    ∃ m ∈ ys, digits ∈ Script.sharedNumbers none m := by
  obtain ⟨hreplaced, -, -, -⟩ := h
  rcases hreplaced.mem_left hl with hl | ⟨-, indent, block, hcopy, hl⟩
  · exact ⟨l, mem_beforeExport.2 (.inl hl), hd⟩
  · refine ⟨indented unit (l.drop indent.length), mem_beforeExport.2 (.inr ?_), ?_⟩
    · refine mem_sharedDeclaration.2 (.inr (.inl ⟨_, ?_, rfl⟩))
      rw [← hcopy.body_eq]
      exact List.mem_map_of_mem hl
    · rwa [sharedNumbers_ignoresMargin.of_indented hunit,
        hcopy.eq_of_ignoresMargin sharedNumbers_ignoresMargin hl]

lemma SharedOnce.names (h : SharedOnce unit n xs ys) :
    ∃ m ∈ ys, Nat.toDigits 10 n ∈ Script.sharedNumbers none m := by
  obtain ⟨-, -, -, -⟩ := h
  refine ⟨declarationStart n, mem_beforeExport.2 (.inr (mem_sharedDeclaration.2 (.inl rfl))), ?_⟩
  exact mem_sharedNumbers_of_hasWord (hasWord_declarationStart n)

lemma SharedOnce.fresh (h : SharedOnce unit n xs ys) :
    ∀ l ∈ xs, Nat.toDigits 10 n ∉ Script.sharedNumbers none l := by
  obtain ⟨-, -, hfresh, -⟩ := h
  exact hfresh

end Numbers

section Breaks

variable {unit : List Char} {n k : ℕ} {xs ys : List (List Char)}

lemma notMem_of_isMargin {indent : List Char} (h : ∀ c ∈ indent, isMargin c) : '\n' ∉ indent :=
  fun hm => absurd (h '\n' hm) (by decide)

lemma notMem_sharedName (n : ℕ) : '\n' ∉ sharedName n := by
  intro hm
  rcases List.mem_append.1 hm with hm | hm
  · exact absurd hm (by decide)
  · exact absurd (Number.isAsciiDigit_of_toDigits hm) (by decide)

lemma notMem_useLine {indent : List Char} (h : ∀ c ∈ indent, isMargin c) :
    '\n' ∉ useLine (sharedName n) indent := by
  have hend : '\n' ∉ " />".toList := by decide
  have hname : '\n' ∉ '<' :: sharedName n :=
    List.not_mem_cons_of_ne_of_not_mem (by decide) (notMem_sharedName n)
  exact notMem_append (notMem_append (notMem_of_isMargin h) hname) hend

lemma notMem_declarationStart (n : ℕ) : '\n' ∉ declarationStart n := by
  have hstart : '\n' ∉ "const ".toList := by decide
  have hend : '\n' ∉ " = () => (".toList := by decide
  exact notMem_append (notMem_append hstart (notMem_sharedName n)) hend

lemma SharedOnce.notMem_break (hunit : ∀ c ∈ unit, isMargin c) (h : SharedOnce unit n xs ys)
    (hx : ∀ l ∈ xs, '\n' ∉ l) : ∀ l ∈ ys, '\n' ∉ l := by
  obtain ⟨hreplaced, hcopies, -, -⟩ := h
  obtain ⟨indent, block, hcopy, hblock⟩ := hreplaced.exists_copy (by omega)
  intro l hl
  rcases mem_beforeExport.1 hl with hl | hl
  · rcases hreplaced.mem_right hl with hl | ⟨margin, hi, rfl⟩
    · exact hx l hl
    · exact notMem_useLine hi
  · rcases mem_sharedDeclaration.1 hl with rfl | ⟨m, hm, rfl⟩ | rfl | rfl
    · exact notMem_declarationStart n
    · rw [← hcopy.body_eq] at hm
      obtain ⟨line, hline, rfl⟩ := List.mem_map.1 hm
      have hinner : '\n' ∉ line.drop indent.length :=
        fun hc => hx line (hblock line hline) (List.mem_of_mem_drop hc)
      unfold indented
      split_ifs
      · exact hinner
      · simp [notMem_of_isMargin hunit, hinner]
    · decide
    · simp

lemma lines_unlines {ls : List (List Char)} (hne : ls ≠ []) (h : ∀ l ∈ ls, '\n' ∉ l) :
    lines (unlines ls) = ls := splitOn_joinWith hne h

end Breaks

end ViewWriter.Script
