import ViewWriter.Proofs.Script.BareLines
import ViewWriter.Proofs.Script.Sharing

/-! Sharing repeated blocks keeps what the lines of a script import, load and name. A block of
component imports is no part of what is shared. -/

namespace ViewWriter.Script

open ViewWriter.Text

/-- Lines that differ at most in their margins. -/
def SameText (l m : List Char) : Prop := ∀ {α : Type} {f : List Char → α}, IgnoresMargin f → f l = f m

/-- A line that cannot import or load anything. -/
structure IsPlain (l : List Char) : Prop where
  quote : l.all (!isQuote ·) = true
  head : (l.dropWhile isMargin).head? ≠ some 'i'

section Plain

variable {framework : Framework} {weights : Table WeightedImport} {l indent : List Char}

lemma IsPlain.lineImport? (h : IsPlain l) : lineImport? l = none := lineImport?_of_head h.head

lemma IsPlain.isWhole (h : IsPlain l) : isWhole l = true := isWhole_of_head h.head

lemma IsPlain.isLoadingLine (h : IsPlain l) : isLoadingLine framework weights l = false := by
  have hcount : l.count '\'' = 0 :=
    List.count_eq_zero.2 fun hm => absurd (List.all_eq_true.1 h.quote _ hm) (by decide)
  have hwrapper : wrapperLine? weights l = none := by
    rw [wrapperLine?, lazyLineAt?_of_count (by omega)]
    rfl
  rw [Script.isLoadingLine, boundLine?, importLine?_eq, h.lineImport?, hwrapper,
    isPrimitiveLine_of_head h.head]
  rfl

lemma noQuote_sharedName (n : ℕ) : (sharedName n).all (!isQuote ·) = true := by
  have hstem : sharedStem.all (!isQuote ·) = true := by decide
  have hdigits : (Nat.toDigits 10 n).all (!isQuote ·) = true := by
    refine List.all_eq_true.2 fun c hc => ?_
    have hdigit := Number.isAsciiDigit_of_toDigits hc
    rw [Bool.not_eq_true', Bool.eq_false_iff]
    intro hquote
    simp only [isQuote, Bool.or_eq_true, beq_iff_eq] at hquote
    rcases hquote with rfl | rfl <;> exact absurd hdigit (by decide)
  exact all_append hstem hdigits

lemma isPlain_nil : IsPlain [] := ⟨rfl, by simp⟩

lemma isPlain_useLine (h : ∀ c ∈ indent, isMargin c) (n : ℕ) :
    IsPlain (useLine (sharedName n) indent) := by
  have hindent : indent.all (!isQuote ·) = true := by
    refine List.all_eq_true.2 fun c hc => ?_
    have hc : c = ' ' ∨ c = '\t' := by simpa [isMargin] using h c hc
    rcases hc with rfl | rfl <;> rfl
  have hend : " />".toList.all (!isQuote ·) = true := by decide
  have hbracket : isQuote '<' = false := by decide
  have hsplit : useLine (sharedName n) indent = indent ++ '<' :: (sharedName n ++ " />".toList) := by
    simp [useLine]
  rw [hsplit]
  refine ⟨?_, ?_⟩
  · have hname : ('<' :: (sharedName n ++ " />".toList)).all (!isQuote ·) = true := by
      rw [List.all_cons, hbracket, all_append (noQuote_sharedName n) hend]
      rfl
    exact all_append hindent hname
  · rw [dropWhile_stop h rfl, List.head?_cons]
    decide

lemma isPlain_declarationStart (n : ℕ) : IsPlain (declarationStart n) := by
  have hstart : "const ".toList.all (!isQuote ·) = true := by decide
  have hend : " = () => (".toList.all (!isQuote ·) = true := by decide
  refine ⟨?_, ?_⟩
  · exact all_append (all_append hstart (noQuote_sharedName n)) hend
  · have hhead : ((declarationStart n).dropWhile isMargin).head? = some 'c' := rfl
    rw [hhead]
    decide

lemma isPlain_declarationEnd : IsPlain declarationEnd := ⟨by decide, by decide⟩

end Plain

section Rounds

variable {framework : Framework} {weights : Table WeightedImport} {unit indent l : List Char}
  {xs ys body block : List (List Char)} {n : ℕ} {ns : List ℕ} {preserve : List String}

lemma IsCopy.sameText (h : IsCopy indent body block) (hl : l ∈ block) :
    SameText (l.drop indent.length) l := fun hf => h.eq_of_ignoresMargin hf hl

lemma sameText_indented (hunit : ∀ c ∈ unit, isMargin c) (l : List Char) :
    SameText (indented unit l) l := fun hf => hf.of_indented hunit l

/-- The lines after a round are lines from before it, or they import and load nothing. -/
lemma SharedOnce.mem_right (hunit : ∀ c ∈ unit, isMargin c) (h : SharedOnce unit n xs ys)
    (hl : l ∈ ys) : IsPlain l ∨ ∃ m ∈ xs, SameText l m := by
  obtain ⟨hreplaced, hcopies, -, -⟩ := h
  obtain ⟨indent, block, hcopy, hblock⟩ := hreplaced.exists_copy (by omega)
  rcases mem_beforeExport.1 hl with hl | hl
  · rcases hreplaced.mem_right hl with hl | ⟨margin, hmargin, rfl⟩
    · exact .inr ⟨l, hl, fun _ => rfl⟩
    · exact .inl (isPlain_useLine hmargin n)
  · rcases mem_sharedDeclaration.1 hl with rfl | ⟨m, hm, rfl⟩ | rfl | rfl
    · exact .inl (isPlain_declarationStart n)
    · rw [← hcopy.body_eq] at hm
      obtain ⟨line, hline, rfl⟩ := List.mem_map.1 hm
      refine .inr ⟨line, hblock line hline, fun hf => ?_⟩
      rw [sameText_indented hunit _ hf, hcopy.sameText hline hf]
    · exact .inl isPlain_declarationEnd
    · exact .inl isPlain_nil

lemma SharedOnce.mem_left (hunit : ∀ c ∈ unit, isMargin c) (h : SharedOnce unit n xs ys)
    (hl : l ∈ xs) : ∃ m ∈ ys, SameText m l := by
  obtain ⟨hreplaced, -, -, -⟩ := h
  rcases hreplaced.mem_left hl with hl | ⟨-, indent, block, hcopy, hl⟩
  · exact ⟨l, mem_beforeExport.2 (.inl hl), fun _ => rfl⟩
  · refine ⟨indented unit (l.drop indent.length), mem_beforeExport.2 (.inr ?_), fun hf => ?_⟩
    · refine mem_sharedDeclaration.2 (.inr (.inl ⟨_, ?_, rfl⟩))
      rw [← hcopy.body_eq]
      exact List.mem_map_of_mem hl
    · rw [sameText_indented hunit _ hf, hcopy.sameText hl hf]

lemma lineStatement?_none_iff : lineStatement? l = none ↔ Script.lineImport? l = none := by
  rw [Script.lineImport?, Option.map_eq_none_iff]

lemma SharedOnce.allUsed (hunit : ∀ c ∈ unit, isMargin c) (h : SharedOnce unit n xs ys)
    (hused : AllUsed preserve xs) : AllUsed preserve ys := by
  intro l hl s hs name hname
  have himport : Script.lineImport? l = some (s.clause, s.source) := by
    rw [Script.lineImport?, hs]
    rfl
  rcases h.mem_right hunit hl with hplain | ⟨m, hm, hsame⟩
  · rw [hplain.lineImport?] at himport
    cases himport
  · rw [hsame lineImport?_ignoresMargin] at himport
    obtain ⟨t, ht, hclause⟩ := Option.map_eq_some_iff.1 himport
    obtain ⟨hclause, -⟩ := Prod.mk.inj hclause
    rcases hused m hm t ht name (hclause ▸ hname) with hkept | ⟨k, hk, hnone, hmem⟩
    · exact .inl hkept
    · obtain ⟨k', hk', hsame'⟩ := h.mem_left hunit hk
      refine .inr ⟨k', hk', ?_, ?_⟩
      · rw [lineStatement?_none_iff, hsame' lineImport?_ignoresMargin, ← lineStatement?_none_iff, hnone]
      · rwa [hsame' references_ignoresMargin]

lemma SharedOnce.whole (hunit : ∀ c ∈ unit, isMargin c) (h : SharedOnce unit n xs ys)
    (hwhole : ∀ l ∈ xs, Script.isWhole l) : ∀ l ∈ ys, Script.isWhole l := by
  intro l hl
  rcases h.mem_right hunit hl with hplain | ⟨m, hm, hsame⟩
  · exact hplain.isWhole
  · rw [hsame isWhole_ignoresMargin]
    exact hwhole m hm

lemma SharedOnce.unbound (hunit : ∀ c ∈ unit, isMargin c) (h : SharedOnce unit n xs ys)
    (hnone : ∀ l ∈ xs, boundLine? framework weights l = none) :
    ∀ l ∈ ys, boundLine? framework weights l = none := by
  intro l hl
  rcases h.mem_right hunit hl with hplain | ⟨m, hm, hsame⟩
  · exact boundLine?_of_not_loading hplain.isLoadingLine
  · rw [hsame boundLine?_ignoresMargin]
    exact hnone m hm

end Rounds

/-- Lines that stand together in a script and hold all that it loads. -/
def StandsIn (framework : Framework) (weights : Table WeightedImport)
    (block xs : List (List Char)) : Prop :=
  ∃ front back, xs = front ++ (block ++ back) ∧ back ≠ [] ∧
    (∀ l ∈ front, isLoadingLine framework weights l = false) ∧
      ∀ l ∈ back, isLoadingLine framework weights l = false

/-- Loading lines no two of which are alike. -/
structure IsSingle (framework : Framework) (weights : Table WeightedImport)
    (block : List (List Char)) : Prop where
  ne_nil : block ≠ []
  loading : ∀ l ∈ block, isLoadingLine framework weights l = true
  once : ∀ l ∈ block, ∃ p : List Char → Bool, IgnoresMargin p ∧ p l = true ∧
    (∀ m, p m = true → isLoadingLine framework weights m = true) ∧ block.countP p ≤ 1

section Block

variable {framework : Framework} {weights : Table WeightedImport} {unit : List Char}
  {block body xs ys : List (List Char)} {n k : ℕ} {ns : List ℕ}

lemma countP_eq_zero_of_loading {p : List Char → Bool}
    (hp : ∀ m, p m = true → isLoadingLine framework weights m = true)
    (hxs : ∀ l ∈ xs, isLoadingLine framework weights l = false) : xs.countP p = 0 :=
  List.countP_eq_zero.2 fun l hl hpl => Bool.false_ne_true ((hxs l hl).symm.trans (hp l hpl))

/-- No line of the block is part of an element that stands twice. -/
lemma StandsIn.notMem_copy (hx : StandsIn framework weights block xs)
    (hsingle : IsSingle framework weights block) (h : Replaced (sharedName n) body k xs ys)
    (hk : 2 ≤ k) : ∀ l ∈ block, ∀ indent copy, IsCopy indent body copy → l ∉ copy := by
  intro l hl indent copy hcopy hmem
  obtain ⟨p, hp, hpl, hploading, honce⟩ := hsingle.once l hl
  obtain ⟨front, back, rfl, -, hfront, hback⟩ := hx
  have huse : ∀ indent, (∀ c ∈ indent, isMargin c) → p (useLine (sharedName n) indent) = false := by
    intro indent hindent
    refine Bool.eq_false_iff.2 fun hpuse => ?_
    have hplain : isLoadingLine framework weights (useLine (sharedName n) indent) = false :=
      (isPlain_useLine hindent n).isLoadingLine
    exact Bool.false_ne_true (hplain.symm.trans (hploading _ hpuse))
  have hbody : 0 < body.countP p := by
    rw [← hcopy.countP hp]
    exact List.countP_pos_iff.2 ⟨l, hmem, hpl⟩
  have hcount := h.countP hp huse
  rw [List.countP_append, List.countP_append, countP_eq_zero_of_loading hploading hfront,
    countP_eq_zero_of_loading hploading hback] at hcount
  have htwo := Nat.mul_le_mul hk hbody
  omega

lemma isLoadingLine_of_export {l : List Char} (h : beginsExport l = true) :
    isLoadingLine framework weights l = false := by
  obtain ⟨rest, rfl⟩ := List.isPrefixOf_iff_prefix.1 h
  have hhead : ((exportStart ++ rest).dropWhile isMargin).head? = some 'e' := rfl
  rw [isLoadingLine, boundLine?, importLine?_eq, lineImport?_of_head (by rw [hhead]; decide),
    wrapperLine?_of_head (by rw [hhead]; decide), isPrimitiveLine_of_head (by rw [hhead]; decide)]
  rfl

lemma Replaced.not_loading (h : Replaced (sharedName n) body k xs ys)
    (hx : ∀ l ∈ xs, isLoadingLine framework weights l = false) :
    ∀ l ∈ ys, isLoadingLine framework weights l = false := by
  intro l hl
  rcases h.mem_right hl with hl | ⟨indent, hindent, rfl⟩
  · exact hx l hl
  · exact (isPlain_useLine hindent n).isLoadingLine

lemma Replaced.ne_nil (h : Replaced (sharedName n) body k xs ys) (hx : xs ≠ []) : ys ≠ [] := by
  cases h with
  | nil => exact hx
  | keep => exact List.cons_ne_nil _ _
  | copy => exact List.cons_ne_nil _ _

lemma StandsIn.replaced (hx : StandsIn framework weights block xs)
    (hsingle : IsSingle framework weights block) (h : Replaced (sharedName n) body k xs ys)
    (hk : 2 ≤ k) : StandsIn framework weights block ys := by
  have hno := hx.notMem_copy hsingle h hk
  obtain ⟨front, back, rfl, hne, hfront, hback⟩ := hx
  obtain ⟨first, rest, rfl⟩ := List.exists_cons_of_ne_nil hsingle.ne_nil
  obtain ⟨_, _, front', _, -, rfl, hfront', hrest⟩ :=
    h.split_of_notMem (hno first List.mem_cons_self)
  obtain ⟨_, back', rfl, hback'⟩ :=
    hrest.split_prefix fun l hl => hno l (List.mem_cons_of_mem first hl)
  exact ⟨front', back', rfl, hback'.ne_nil hne, hfront'.not_loading hfront, hback'.not_loading hback⟩

lemma StandsIn.beforeExport {new : List (List Char)} (hx : StandsIn framework weights block xs)
    (hsingle : IsSingle framework weights block) (hexports : hasExport xs = true)
    (hnew : ∀ l ∈ new, isLoadingLine framework weights l = false) :
    StandsIn framework weights block (beforeExport new xs) := by
  obtain ⟨before, e, after, hsplit, hbefore, he⟩ := exists_export hexports
  obtain ⟨front, back, rfl, hne, hfront, hback⟩ := hx
  have hnot : e ∉ block := fun hmem =>
    Bool.false_ne_true ((isLoadingLine_of_export he).symm.trans (hsingle.loading e hmem))
  rw [hsplit, beforeExport_eq new hbefore he]
  rcases List.append_eq_append_iff.1 hsplit with ⟨a, rfl, hrest⟩ | ⟨a, rfl, hrest⟩
  · rcases List.append_eq_append_iff.1 hrest with ⟨b, rfl, rfl⟩ | ⟨b, rfl, htail⟩
    · refine ⟨front, b ++ new ++ e :: after, by simp, by simp, hfront, fun l hl => ?_⟩
      rw [List.append_assoc, List.mem_append, List.mem_append] at hl
      rcases hl with hl | hl | hl
      · exact hback l (List.mem_append_left _ hl)
      · exact hnew l hl
      · exact hback l (List.mem_append_right _ hl)
    · cases b with
      | nil =>
        obtain rfl : e :: after = back := htail
        refine ⟨front, new ++ e :: after, by simp, by simp, hfront, fun l hl => ?_⟩
        rcases List.mem_append.1 hl with hl | hl
        · exact hnew l hl
        · exact hback l hl
      | cons d b =>
        obtain ⟨rfl, -⟩ := List.cons.inj htail
        exact absurd (List.mem_append_right _ List.mem_cons_self) hnot
  · cases a with
    | nil =>
      obtain ⟨first, rest, rfl⟩ := List.exists_cons_of_ne_nil hsingle.ne_nil
      obtain ⟨rfl, -⟩ := List.cons.inj hrest
      exact absurd List.mem_cons_self hnot
    | cons d a =>
      obtain ⟨rfl, rfl⟩ := List.cons.inj hrest
      refine ⟨before ++ new ++ e :: a, back, by simp, hne, fun l hl => ?_, hback⟩
      rw [List.append_assoc, List.mem_append, List.mem_append] at hl
      rcases hl with hl | hl | hl
      · exact hfront l (List.mem_append_left _ hl)
      · exact hnew l hl
      · exact hfront l (List.mem_append_right _ hl)

lemma SharedOnce.standsIn (hunit : ∀ c ∈ unit, isMargin c) (h : SharedOnce unit n xs ys)
    (hsingle : IsSingle framework weights block) (hx : StandsIn framework weights block xs) :
    StandsIn framework weights block ys := by
  obtain ⟨hreplaced, hcopies, -, hexports⟩ := h
  rename_i body replaced k
  have hno := hx.notMem_copy hsingle hreplaced hcopies
  obtain ⟨indent, copy, hcopy, hmem⟩ := hreplaced.exists_copy (by omega)
  have hbody : ∀ l ∈ copy, isLoadingLine framework weights l = false := by
    intro l hl
    obtain ⟨front, back, rfl, -, hfront, hback⟩ := hx
    rcases List.mem_append.1 (hmem l hl) with hxl | hxl
    · exact hfront l hxl
    · rcases List.mem_append.1 hxl with hxl | hxl
      · exact absurd hl (hno l hxl indent copy hcopy)
      · exact hback l hxl
  refine (hx.replaced hsingle hreplaced hcopies).beforeExport hsingle ?_ fun l hl => ?_
  · obtain ⟨e, he, hexport⟩ := List.any_eq_true.1 hexports
    rcases hreplaced.mem_left he with he | ⟨-, _, _, hcopy, he⟩
    · exact List.any_eq_true.2 ⟨e, he, hexport⟩
    · exact absurd (isFixed_of_beginsExport hexport) (by simp [hcopy.not_fixed he])
  · rcases mem_sharedDeclaration.1 hl with rfl | ⟨m, hm, rfl⟩ | rfl | rfl
    · exact (isPlain_declarationStart n).isLoadingLine
    · rw [← hcopy.body_eq] at hm
      obtain ⟨line, hline, rfl⟩ := List.mem_map.1 hm
      rw [sameText_indented hunit _ isLoadingLine_ignoresMargin,
        hcopy.sameText hline isLoadingLine_ignoresMargin, hbody line hline]
    · exact isPlain_declarationEnd.isLoadingLine
    · exact isPlain_nil.isLoadingLine

end Block

end ViewWriter.Script

/-! A tidy script stays tidy when its repeated blocks are shared, and one that regrouping leaves as it
is stays one. -/

namespace ViewWriter.Script

open ViewWriter.Text

section Runs

variable {unit : List Char} {ns : List ℕ} {xs ys : List (List Char)}

/-- What every round keeps, a run keeps. -/
lemma SharedRun.preserves {P : List (List Char) → Prop}
    (hstep : ∀ {n xs ys}, SharedOnce unit n xs ys → P xs → P ys) (h : SharedRun unit xs ns ys)
    (hx : P xs) : P ys := by
  induction h with
  | done xs => exact hx
  | round h _ ih => exact ih (hstep h hx)

variable {preserve : List String} {code out : List Char}

lemma allUsed_codeLines_iff : AllUsed preserve (lines code) ↔ AllUsed preserve (codeLines code) := by
  simpa only [flatten_codeLines] using allUsed_lines_iff (areLines_codeLines code)

lemma AreTidy.shared (hunit : ∀ c ∈ unit, isMargin c) (h : AreTidy preserve (codeLines code))
    (hrun : SharedRun unit (lines code) ns (lines out)) : AreTidy preserve (codeLines out) := by
  refine ⟨areLines_codeLines out, ?_, allUsed_codeLines_iff.1 ?_⟩
  · have hnil : isWhole [] = true := rfl
    have hwhole := h.whole
    rw [← forall_codeLines_iff hnil isWhole_ignoresBreak] at hwhole ⊢
    exact hrun.preserves (fun h => h.whole hunit) hwhole
  · exact hrun.preserves (fun h => h.allUsed hunit) (allUsed_codeLines_iff.2 h.used)

end Runs

/-! Lines and their breaks. -/

section Breaks

variable {ls ms xs ys : List (List Char)} {p : List Char → Bool}

def withBreaks (xs : List (List Char)) : List (List Char) := xs.map (· ++ ['\n'])

lemma AllBroken.exists_bare (h : AllBroken ls) :
    ∃ xs, (∀ x ∈ xs, '\n' ∉ x) ∧ ls = withBreaks xs := by
  induction ls with
  | nil => exact ⟨[], by simp, rfl⟩
  | cons l ls ih =>
    obtain ⟨body, hbody, rfl⟩ := h l List.mem_cons_self
    obtain ⟨xs, hxs, rfl⟩ := ih fun m hm => h m (List.mem_cons_of_mem _ hm)
    exact ⟨body :: xs, List.forall_mem_cons.2 ⟨hbody, hxs⟩, rfl⟩

lemma allBroken_withBreaks (h : ∀ x ∈ xs, '\n' ∉ x) : AllBroken (withBreaks xs) := by
  intro l hl
  obtain ⟨x, hx, rfl⟩ := List.mem_map.1 hl
  exact ⟨x, h x hx, rfl⟩

lemma lines_withBreaks (h : ∀ x ∈ xs, '\n' ∉ x) (ls : List (List Char)) :
    lines (withBreaks xs ++ ls).flatten = xs ++ lines ls.flatten := by
  induction xs with
  | nil => rfl
  | cons x xs ih =>
    obtain ⟨hx, hxs⟩ := List.forall_mem_cons.1 h
    rw [List.cons_append, ← ih hxs]
    exact lines_flatten_cons hx (withBreaks xs ++ ls)

lemma unlines_append (hne : ys ≠ []) : unlines (xs ++ ys) = (withBreaks xs).flatten ++ unlines ys := by
  induction xs with
  | nil => rfl
  | cons x xs ih =>
    have hrest : xs ++ ys ≠ [] := List.append_ne_nil_of_right_ne_nil xs hne
    have hjoin : unlines (x :: (xs ++ ys)) = x ++ (['\n'] ++ unlines (xs ++ ys)) :=
      intercalate_cons_ne hrest
    rw [List.cons_append, hjoin, ih]
    simp [withBreaks]

lemma codeLines_unlines (hx : ∀ x ∈ xs, '\n' ∉ x) (hne : ys ≠ []) :
    codeLines (unlines (xs ++ ys)) = withBreaks xs ++ codeLines (unlines ys) := by
  have hlines := (allBroken_withBreaks hx).append_areLines (areLines_codeLines (unlines ys))
  rw [unlines_append hne, ← hlines.codeLines_flatten, List.flatten_append, flatten_codeLines]

lemma countP_withBreaks (hx : ∀ x ∈ xs, '\n' ∉ x) (hp : IgnoresBreak p) :
    (withBreaks xs).countP p = xs.countP p := by
  rw [withBreaks, List.countP_map]
  exact List.countP_congr fun x hxs => by rw [Function.comp_apply, hp x (hx x hxs)]

end Breaks

section Loading

variable {framework : Framework} {weights : Table WeightedImport} {unit indent : List Char}
  {imports : List WeightedImport} {threshold : Number} {front back bare : List (List Char)}
  {ns : List ℕ}

lemma length_primitiveLines :
    (primitiveLines framework threshold indent imports).length ≤ 1 := by
  rw [primitiveLines, List.length_map]
  split_ifs
  · exact Nat.zero_le 1
  · cases primitive? framework <;> simp

lemma IsGrouped.countP_isPrimitiveLine
    (h : IsGrouped framework weights indent front imports back) :
    (primitiveLines framework threshold indent imports ++
      imports.map (loadLine framework threshold indent)).countP (isPrimitiveLine framework) ≤ 1 := by
  have hnone : (imports.map (loadLine framework threshold indent)).countP
      (isPrimitiveLine framework) = 0 := by
    refine List.countP_eq_zero.2 fun l hl hprimitive => ?_
    obtain ⟨i, hi, rfl⟩ := List.mem_map.1 hl
    have hbound : boundLine? framework weights (loadLine framework threshold indent i) = some i :=
      boundLine?_loadLine (h.known i hi) h.indent
    rw [boundLine?_of_primitive hprimitive] at hbound
    cases hbound
  rw [List.countP_append, hnone]
  exact List.countP_le_length.trans length_primitiveLines

lemma IsGrouped.countP_boundLine? (h : IsGrouped framework weights indent front imports back)
    (i : WeightedImport) : (primitiveLines framework threshold indent imports ++
      imports.map (loadLine framework threshold indent)).countP
        (boundLine? framework weights · == some i) ≤ 1 := by
  have hnone : (primitiveLines framework threshold indent imports).countP
      (boundLine? framework weights · == some i) = 0 :=
    List.countP_eq_zero.2 fun l hl => by simp [boundLine?_primitiveLines h.indent hl]
  have hsame : (imports.map (loadLine framework threshold indent)).countP
      (boundLine? framework weights · == some i) = imports.count i := by
    rw [List.countP_map]
    refine List.countP_congr fun j hj => ?_
    rw [Function.comp_apply, boundLine?_loadLine (h.known j hj) h.indent]
    simp
  rw [List.countP_append, hnone, hsame, Nat.zero_add]
  exact List.nodup_iff_count_le_one.1 (h.nodup.of_map _) i

lemma IsGrouped.isSingle (h : IsGrouped framework weights indent front imports back)
    (hne : imports ≠ []) (hbare : ∀ x ∈ bare, '\n' ∉ x)
    (hblock : primitiveLines framework threshold indent imports ++
      imports.map (loadLine framework threshold indent) = withBreaks bare) :
    IsSingle framework weights bare where
  ne_nil := by
    rintro rfl
    simp [withBreaks, hne] at hblock
  loading := by
    intro l hl
    have hmem : l ++ ['\n'] ∈ withBreaks bare := List.mem_map_of_mem hl
    rw [← hblock] at hmem
    rw [← isLoadingLine_ignoresBreak l (hbare l hl)]
    exact (h.isBlockLine hmem).loading
  once := by
    intro l hl
    have hmem : l ++ ['\n'] ∈ withBreaks bare := List.mem_map_of_mem hl
    rw [← hblock, List.mem_append] at hmem
    rcases hmem with hmem | hmem
    · refine ⟨isPrimitiveLine framework, isPrimitiveLine_ignoresMargin, ?_, fun m hm => ?_, ?_⟩
      · obtain ⟨-, text, htext, hline⟩ := mem_primitiveLines.1 hmem
        rw [← isPrimitiveLine_ignoresBreak l (hbare l hl), hline]
        exact isPrimitiveLine_blockLine htext h.indent
      · rw [isLoadingLine, hm, Bool.or_true]
      · rw [← countP_withBreaks hbare isPrimitiveLine_ignoresBreak, ← hblock]
        exact h.countP_isPrimitiveLine
    · obtain ⟨i, hi, hline⟩ := List.mem_map.1 hmem
      have hbound : boundLine? framework weights l = some i := by
        rw [← boundLine?_ignoresBreak l (hbare l hl), ← hline]
        exact boundLine?_loadLine (h.known i hi) h.indent
      refine ⟨fun m => boundLine? framework weights m == some i,
        boundLine?_ignoresMargin.comp (· == some i), ?_, fun m hm => ?_, ?_⟩
      · exact beq_iff_eq.2 hbound
      · rw [isLoadingLine, beq_iff_eq.1 hm]
        rfl
      · rw [← countP_withBreaks hbare (boundLine?_ignoresBreak.comp (· == some i)), ← hblock]
        exact h.countP_boundLine? i

variable {limit : Except Fault Number} {ls : List (List Char)} {code out : List Char}

/-- Sharing leaves what regrouping leaves. -/
lemma IsRegrouped.shared (hunit : ∀ c ∈ unit, isMargin c)
    (h : IsRegrouped framework limit weights (codeLines code))
    (hrun : SharedRun unit (lines code) ns (lines out)) :
    IsRegrouped framework limit weights (codeLines out) := by
  rcases h with hnone | ⟨n, indent, front, imports, back, rfl, hne, hgrouped, hcode⟩
  · have hnil : boundLine? framework weights [] = none :=
      boundLine?_of_not_loading isPlain_nil.isLoadingLine
    refine .inl ?_
    rw [← forall_codeLines_iff hnil boundLine?_ignoresBreak] at hnone ⊢
    exact hrun.preserves (fun h => h.unbound hunit) hnone
  · have hlines := areLines_codeLines code
    have hnil : isLoadingLine framework weights [] = false := isPlain_nil.isLoadingLine
    rw [hcode, groupedLines] at hlines
    have hbroken : AllBroken (primitiveLines framework n indent imports ++
      imports.map (loadLine framework n indent)) := fun l hl => (hgrouped.isBlockLine hl).broken
    obtain ⟨bare, hbare, hblock⟩ := hbroken.exists_bare
    obtain ⟨before, hbefore, rfl⟩ := (hlines.allBroken (by simp [hne])).exists_bare
    have hstands : StandsIn framework weights bare (lines code) := by
      refine ⟨before, lines back.flatten, ?_, splitOn_ne_nil _ _, fun l hl => ?_, ?_⟩
      · rw [← flatten_codeLines code, hcode, groupedLines, hblock, lines_withBreaks hbefore,
          lines_withBreaks hbare]
      · rw [← isLoadingLine_ignoresBreak l (hbefore l hl)]
        exact hgrouped.front _ (List.mem_map_of_mem hl)
      · rw [forall_codeLines_iff hnil isLoadingLine_ignoresBreak, hlines.right.right.codeLines_flatten]
        exact hgrouped.back
    have hsingle := hgrouped.isSingle hne hbare hblock
    obtain ⟨before', after, hout, hafter, hbefore', hback⟩ :=
      hrun.preserves (fun h => h.standsIn hunit hsingle) hstands
    have hbreak : ∀ l ∈ before' ++ (bare ++ after), '\n' ∉ l := fun l hl =>
      notMem_of_splitOn (hout ▸ hl : l ∈ lines out)
    have hbreak' : ∀ l ∈ before', '\n' ∉ l := fun l hl => hbreak l (List.mem_append_left _ hl)
    refine .inr ⟨n, indent, withBreaks before', imports, codeLines (unlines after), rfl, hne,
      { hgrouped with front := fun l hl => ?_, back := ?_ }, ?_⟩
    · obtain ⟨m, hm, rfl⟩ := List.mem_map.1 hl
      rw [isLoadingLine_ignoresBreak m (hbreak' m hm), hbefore' m hm]
    · rw [← forall_codeLines_iff hnil isLoadingLine_ignoresBreak, lines_unlines hafter fun l hl =>
        hbreak l (List.mem_append_right _ (List.mem_append_right _ hl))]
      exact hback
    · rw [← lines_unlines_lines out, hout, codeLines_unlines hbreak' (by simp [hafter]),
        codeLines_unlines hbare hafter, groupedLines, hblock]

end Loading

end ViewWriter.Script
