import ViewWriter.Proofs.Script.LineShape

/-! The import bindings of a script and the names that it uses, line by line. -/

namespace ViewWriter.Script

open ViewWriter.Text

section References

variable {cs ds l indent : List Char} {c : Char}

lemma identifiers_stop (hc : isIdentifierPart c = false) (cs ds : List Char) :
    identifiers (cs ++ c :: ds) = identifiers cs ++ identifiers ds := by
  have hstart : isIdentifierStart c = false :=
    Bool.eq_false_iff.2 fun h => by simp [isIdentifierPart_of_start h] at hc
  fun_induction identifiers cs with
  | case1 => rw [List.nil_append, identifiers, if_neg (by simp [hstart]), List.nil_append]
  | case2 d rest hd ih =>
    rw [List.cons_append, identifiers, if_pos hd, takeWhile_append_stop hc, dropWhile_append_stop hc,
      ih, List.cons_append]
  | case3 d rest hd ih => rw [List.cons_append, identifiers, if_neg hd, ih]

lemma identifiers_skip (hc : isIdentifierStart c = false) (cs : List Char) :
    identifiers (c :: cs) = identifiers cs := by
  rw [identifiers, if_neg (by simp [hc])]

lemma identifiers_word {word : List Char} (hw : isIdentifier word = true) :
    identifiers word = [String.ofList word] := by
  cases word with
  | nil => cases hw
  | cons c rest =>
    rw [isIdentifier, Bool.and_eq_true, List.all_eq_true] at hw
    rw [identifiers, if_pos hw.1, List.takeWhile_eq_self_iff.2 hw.2,
      List.dropWhile_eq_nil_iff.2 hw.2, identifiers]

lemma identifiers_join {xs : List String} (h : ∀ x ∈ xs, isIdentifier x.toList = true) :
    identifiers (join ", " xs).toList = xs := by
  have hrest : ∀ ys : List String, (∀ y ∈ ys, isIdentifier y.toList = true) → ∀ x : String,
      isIdentifier x.toList = true →
        identifiers (x.toList ++ (ys.map String.toList).flatMap (", ".toList ++ ·)) = x :: ys := by
    intro ys hys
    induction ys with
    | nil =>
      intro x hx
      simp [identifiers_word hx]
    | cons y ys ih =>
      intro x hx
      have hnext := ih (fun z hz => hys z (List.mem_cons_of_mem y hz)) y (hys y List.mem_cons_self)
      have hseparator : ", ".toList = [',', ' '] := rfl
      rw [List.map_cons, List.flatMap_cons, List.append_assoc, hseparator, List.cons_append,
        List.singleton_append, ← hseparator, identifiers_stop (by decide),
        identifiers_skip (by decide), identifiers_word hx, hnext, String.ofList_toList,
        List.singleton_append]
  cases xs with
  | nil => rw [join, String.toList_ofList, List.map_nil, joinWith, List.intercalate_nil, identifiers]
  | cons x ys =>
    rw [join, String.toList_ofList, List.map_cons, joinWith_eq]
    exact hrest ys (fun y hy => h y (List.mem_cons_of_mem x hy)) x (h x List.mem_cons_self)

lemma mem_identifiers_word {word front back : List Char} {d : Char}
    (hc : isIdentifierPart c = false) (hw : isIdentifier word = true) (hd : isIdentifierPart d = false) :
    String.ofList word ∈ identifiers (front ++ c :: (word ++ d :: back)) := by
  rw [identifiers_stop hc, identifiers_stop hd, identifiers_word hw]
  simp

lemma hyphenated_break (cs ds : List Char) : hyphenated (cs ++ '\n' :: ds) = hyphenated cs := by
  have hbreak : isTagChar '\n' = false := by decide
  fun_induction hyphenated cs with
  | case1 rest part hpart =>
    rw [List.cons_append, hyphenated, takeWhile_append_stop hbreak, if_pos hpart]
  | case2 rest part hpart ih =>
    rw [List.cons_append, hyphenated, takeWhile_append_stop hbreak, if_neg hpart,
      dropWhile_append_stop hbreak, ih]
  | case3 cs hcs =>
    cases cs with
    | nil => rw [List.nil_append, hyphenated]; simp
    | cons c cs =>
      rw [List.cons_append, hyphenated]
      simpa using hcs

lemma tagParts?_break (cs ds : List Char) : tagParts? (cs ++ '\n' :: ds) = tagParts? cs := by
  have hbreak : isTagChar '\n' = false := by decide
  cases cs with
  | nil => rfl
  | cons c rest =>
    rw [List.cons_append, tagParts?, tagParts?, takeWhile_append_stop hbreak,
      dropWhile_append_stop hbreak, hyphenated_break]

/-- The names of the tag at an opening bracket. -/
def tagHere (rest : List Char) : List String :=
  match tagParts? (if rest.head? == some '/' then rest.drop 1 else rest) with
  | some (first, parts) =>
    [String.ofList (Name.pascalChars (first ++ '-' :: joinWith ['-'] parts)),
      String.ofList (Name.pascalChars (joinWith ['-'] parts))]
  | none => []

lemma tagNames_bracket (rest : List Char) : tagNames ('<' :: rest) = tagHere rest ++ tagNames rest := by
  rw [tagNames, tagHere]
  cases tagParts? (if rest.head? == some '/' then rest.drop 1 else rest) <;> rfl

lemma tagNames_skip (hc : c ≠ '<') (cs : List Char) : tagNames (c :: cs) = tagNames cs := by
  rw [tagNames]
  exact hc

lemma tagHere_break (cs ds : List Char) : tagHere (cs ++ '\n' :: ds) = tagHere cs := by
  have hname : (if (cs ++ '\n' :: ds).head? == some '/' then (cs ++ '\n' :: ds).drop 1
      else cs ++ '\n' :: ds) = (if cs.head? == some '/' then cs.drop 1 else cs) ++ '\n' :: ds := by
    cases cs with
    | nil => rfl
    | cons c cs =>
      simp only [List.cons_append, List.head?_cons, List.drop_succ_cons, List.drop_zero]
      split_ifs <;> rfl
  rw [tagHere, tagHere, hname, tagParts?_break]

lemma tagNames_break (cs ds : List Char) :
    tagNames (cs ++ '\n' :: ds) = tagNames cs ++ tagNames ds := by
  induction cs with
  | nil => exact tagNames_skip (by decide) ds
  | cons c cs ih =>
    rw [List.cons_append]
    by_cases hc : c = '<'
    · rw [hc, tagNames_bracket, tagNames_bracket, tagHere_break, ih, List.append_assoc]
    · rw [tagNames_skip hc, tagNames_skip hc, ih]

lemma mem_references_break {name : String} :
    name ∈ references (cs ++ '\n' :: ds) ↔ name ∈ references cs ∨ name ∈ references ds := by
  have hbreak : isIdentifierPart '\n' = false := by decide
  simp only [references, identifiers_stop hbreak, tagNames_break, List.mem_append]
  tauto

lemma references_nil : references [] = [] := by
  rw [references, identifiers, tagNames, List.append_nil]

lemma references_line : references (l ++ ['\n']) = references l := by
  have hbreak : isIdentifierPart '\n' = false := by decide
  rw [references, references, identifiers_stop hbreak, tagNames_break, identifiers, tagNames,
    List.append_nil, List.append_nil]

lemma references_skip (hc : isIdentifierStart c = false) (hbracket : c ≠ '<') (cs : List Char) :
    references (c :: cs) = references cs := by
  rw [references, references, identifiers_skip hc, tagNames_skip hbracket]

lemma references_margin (h : ∀ c ∈ indent, isMargin c) (l : List Char) :
    references (indent ++ l) = references l := by
  induction indent with
  | nil => rfl
  | cons c indent ih =>
    have hc : c = ' ' ∨ c = '\t' := by simpa [isMargin] using h c List.mem_cons_self
    have hrest := ih fun d hd => h d (List.mem_cons_of_mem c hd)
    rw [List.cons_append, ← hrest]
    rcases hc with rfl | rfl <;> exact references_skip (by decide) (by decide) _

lemma references_of_blank (h : isBlankLine l = true) : references l = [] := by
  induction l with
  | nil => exact references_nil
  | cons c l ih =>
    rw [isBlankLine, List.all_cons, Bool.and_eq_true] at h
    have hstart : isIdentifierStart c = false := by
      refine Bool.eq_false_iff.2 fun hc => ?_
      simpa [isIdentifierPart_of_blank h.1] using isIdentifierPart_of_start hc
    have hbracket : c ≠ '<' := by
      rintro rfl
      exact absurd h.1 (by decide)
    rw [references_skip hstart hbracket, ih h.2]

end References

/-- Whether a name stands outside the import statements of a script. -/
def IsReferenced (ls : List (List Char)) (name : String) : Prop :=
  ∃ l ∈ ls, lineStatement? l = none ∧ name ∈ references l

/-- Every name that is imported is in use, or it is to be kept. -/
def AllUsed (preserve : List String) (ls : List (List Char)) : Prop :=
  ∀ l ∈ ls, ∀ s, lineStatement? l = some s →
    ∀ name ∈ s.clause.locals, name ∈ preserve ∨ IsReferenced ls name

def restrictLine (used : String → Bool) (l : List Char) : List (List Char) :=
  match lineStatement? l with
  | none => [l]
  | some s =>
    if s.clause.locals.all used then [l]
    else
      let kept := { s with clause := s.clause.restrict used }
      if kept.clause.isEmpty then [] else [kept.write.toList]

section Restriction

variable {used : String → Bool} {preserve : List String} {ls : List (List Char)} {l : List Char}
  {name : String} {code : String}

lemma importPieces_lines (hls : AreLines ls) (hwhole : ∀ l ∈ ls, isWhole l)
    (hcode : code.toList = ls.flatten) :
    importPieces code = ls.map (linePiece fun l => (importAt? l).map (·.value)) := by
  rw [importPieces, hcode, pieces_lines hls fun l hl => isWhole.decides (hwhole l hl)]

/-- A line as it counts for the names in use. -/
def bodyLine (l : List Char) : List Char := if (lineStatement? l).isSome then ['\n'] else l

lemma bodyOf_lines (ls : List (List Char)) :
    bodyOf (ls.map (linePiece fun l => (importAt? l).map (·.value))) = ls.flatMap bodyLine := by
  induction ls with
  | nil => rfl
  | cons l ls ih =>
    rw [List.map_cons, List.flatMap_cons, ← ih, bodyLine, lineStatement?, linePiece]
    cases importAt? l with
    | none => rfl
    | some m =>
      obtain ⟨_ | s, raw, rest⟩ := m <;> rfl

lemma restrictPieces_lines (ls : List (List Char)) :
    restrictPieces used (ls.map (linePiece fun l => (importAt? l).map (·.value))) =
      (ls.flatMap (restrictLine used)).flatten := by
  induction ls with
  | nil => rfl
  | cons l ls ih =>
    rw [List.map_cons, List.flatMap_cons, List.flatten_append, ← ih, restrictLine, lineStatement?,
      linePiece]
    cases importAt? l with
    | none => simp [restrictPieces, Piece.raw]
    | some m =>
      obtain ⟨_ | s, raw, rest⟩ := m
      · simp [restrictPieces, Piece.raw]
      · simp only [Option.map_some, restrictPieces, Option.bind_some, restrictStatement]
        split_ifs <;> simp

lemma mem_references_body (hls : AreLines ls) :
    name ∈ references (ls.flatMap bodyLine) ↔ IsReferenced ls name := by
  induction hls with
  | nil => simp [IsReferenced, references_nil]
  | @last l hne h =>
    rw [List.flatMap_cons, List.flatMap_nil, List.append_nil, bodyLine]
    cases hs : lineStatement? l with
    | none => simp [IsReferenced, hs]
    | some s =>
      have hbreak : references ['\n'] = [] := references_of_blank (by decide)
      simp [IsReferenced, hs, hbreak]
  | @cons l ls h _ ih =>
    have hcons : IsReferenced ((l ++ ['\n']) :: ls) name ↔
        lineStatement? (l ++ ['\n']) = none ∧ name ∈ references (l ++ ['\n']) ∨
          IsReferenced ls name := by
      simp only [IsReferenced, List.mem_cons, exists_eq_or_imp]
    rw [hcons, List.flatMap_cons, bodyLine, ← ih]
    cases hs : lineStatement? (l ++ ['\n']) with
    | none =>
      rw [Option.isSome_none, if_neg Bool.false_ne_true, List.append_assoc, List.singleton_append,
        mem_references_break, references_line]
      tauto
    | some s =>
      have hskip : ∀ cs, references ('\n' :: cs) = references cs :=
        references_skip (by decide) (by decide)
      simp [hskip]

lemma mem_keptNames (hls : AreLines ls) (hwhole : ∀ l ∈ ls, isWhole l)
    (hcode : code.toList = ls.flatten) :
    name ∈ keptNames preserve code ↔ name ∈ preserve ∨ IsReferenced ls name := by
  rw [keptNames, importPieces_lines hls hwhole hcode, bodyOf_lines, List.mem_append,
    mem_references_body hls, or_comm]

/-- Unused import bindings are taken out line by line. -/
lemma withoutUnused_lines (hls : AreLines ls) (hwhole : ∀ l ∈ ls, isWhole l)
    (hcode : code.toList = ls.flatten) : withoutUnused preserve code =
      String.ofList (ls.flatMap (restrictLine (keptNames preserve code).contains)).flatten := by
  rw [withoutUnused, keptNames, importPieces_lines hls hwhole hcode, restrictPieces_lines]

lemma AllUsed.withoutUnused (h : AllUsed preserve ls) (hls : AreLines ls)
    (hwhole : ∀ l ∈ ls, isWhole l) (hcode : code.toList = ls.flatten) :
    withoutUnused preserve code = code := by
  have hkept : ∀ l ∈ ls, restrictLine (keptNames preserve code).contains l = [l] := by
    intro l hl
    rw [restrictLine]
    cases hs : lineStatement? l with
    | none => rfl
    | some s =>
      refine if_pos (List.all_eq_true.2 fun name hname => ?_)
      rw [List.contains_iff_mem, mem_keptNames hls hwhole hcode]
      exact h l hl s hs name hname
  rw [withoutUnused_lines hls hwhole hcode, List.flatMap_congr hkept, List.flatMap_singleton',
    ← hcode, String.ofList_toList]

lemma locals_restrict (c : Clause) : ∀ name ∈ (c.restrict used).locals, used name := by
  intro name hname
  rw [Clause.locals, List.mem_append, List.mem_append, Option.mem_toList, Option.mem_toList] at hname
  rcases hname with (h | h) | h
  · exact (Option.filter_eq_some_iff.1 h).2
  · exact (Option.filter_eq_some_iff.1 h).2
  · obtain ⟨n, hn, rfl⟩ := List.mem_map.1 h
    exact (List.mem_filter.1 hn).2

lemma restrictLine_cases {m : List Char} (hm : m ∈ restrictLine used l) :
    m = l ∧ (∀ s, lineStatement? l = some s → ∀ name ∈ s.clause.locals, used name) ∨
      ∃ s : Statement, s.IsRead ∧ s.clause.isEmpty = false ∧ m = s.write.toList ∧
        lineStatement? m = some s.reread ∧ ∀ name ∈ s.clause.locals, used name := by
  rw [restrictLine] at hm
  cases hs : lineStatement? l with
  | none =>
    rw [hs] at hm
    exact .inl ⟨List.mem_singleton.1 hm, fun s h => by cases h⟩
  | some s =>
    rw [hs] at hm
    dsimp only at hm
    split_ifs at hm with hall hempty
    · refine .inl ⟨List.mem_singleton.1 hm, fun t ht => ?_⟩
      obtain rfl := Option.some.inj ht
      exact List.all_eq_true.1 hall
    · cases hm
    · have hread := (isRead_of_lineStatement? hs).restrict used
      have hne : (s.clause.restrict used).isEmpty = false := by simpa using hempty
      obtain rfl := List.mem_singleton.1 hm
      refine .inr ⟨{ s with clause := s.clause.restrict used }, hread, hne, rfl, ?_,
        locals_restrict s.clause⟩
      have hfound := Statement.importAt?_write hread hne []
      rw [List.append_nil] at hfound
      rw [lineStatement?, hfound]
      rfl

lemma restrictLine_of_none (h : lineStatement? l = none) : restrictLine used l = [l] := by
  rw [restrictLine, h]

lemma IsLine.break_last {rest front back : List Char} (hl : IsLine l rest)
    (h : l = front ++ '\n' :: back) : back = [] := by
  rcases hl with ⟨body, hbody, rfl⟩ | ⟨-, hno, -⟩
  · have hcount := congrArg (List.count '\n') h
    have hone : ['\n'].count '\n' = 1 := rfl
    rw [List.count_append, List.count_append, hone, List.count_cons_self,
      List.count_eq_zero.2 hbody] at hcount
    have hfront : front.count '\n' = 0 := by omega
    exact (break_unique hbody (List.count_eq_zero.1 hfront) h).2.symm
  · exact absurd (h ▸ by simp) hno

lemma notMem_source {s : Statement} {rest : List Char} (hl : IsLine l rest)
    (hs : lineStatement? l = some s) : '\n' ∉ s.source.toList := by
  obtain ⟨m, hm, hs⟩ := Option.bind_eq_some_iff.1 hs
  obtain ⟨shape, clause, ending, -, -, hv, -, hcs⟩ := exists_shape hm
  obtain ⟨c, -, rfl⟩ := Option.map_eq_some_iff.1 (hv.symm.trans hs)
  intro hmem
  obtain ⟨front, back, hsplit, -⟩ := List.eq_append_cons_of_mem (String.toList_ofList ▸ hmem)
  have hline : l = shape.indent ++ ("import".toList ++ (shape.between ++ shape.quote :: front)) ++
      '\n' :: (back ++ shape.quote :: (shape.tail ++ (ending ++ m.rest))) := by
    rw [hcs, Shape.text, hsplit]
    simp
  simpa using hl.break_last hline

lemma broken_write {s : Statement} {rest : List Char} (hl : IsLine l rest)
    (hs : lineStatement? l = some s) :
    ∃ body, '\n' ∉ body ∧
      ({ s with clause := s.clause.restrict used } : Statement).write.toList = body ++ ['\n'] := by
  have hread := (isRead_of_lineStatement? hs).restrict used
  have hindent : '\n' ∉ s.indent := fun h => absurd (hread.indent _ h) (by decide)
  have hclause : '\n' ∉ (s.clause.restrict used).write.toList :=
    Clause.notMem_write hread.clause (by decide) (by decide)
  have hquote : '\n' ≠ s.quote := fun e => absurd (e.symm ▸ hread.quote) (by decide)
  refine ⟨_, ?_, Statement.toList_write _⟩
  have hsource := notMem_source hl hs
  cases s.semicolon <;>
    simp [Statement.shape, Shape.text, Shape.tail, hindent, hclause, hquote, hsource]

lemma areLines_restrict (hls : AreLines ls) : AreLines (ls.flatMap (restrictLine used)) := by
  induction hls with
  | nil => exact .nil
  | @last l hne h =>
    rw [List.flatMap_cons, List.flatMap_nil, List.append_nil, restrictLine]
    cases hs : lineStatement? l with
    | none => exact .last hne h
    | some s =>
      obtain ⟨body, hbody, hwrite⟩ := broken_write (.inr ⟨hne, h, rfl⟩ : IsLine l []) hs
      dsimp only
      split_ifs
      · exact .last hne h
      · exact .nil
      · rw [hwrite]
        exact .cons hbody .nil
  | @cons l ls h _ ih =>
    rw [List.flatMap_cons, restrictLine]
    cases hs : lineStatement? (l ++ ['\n']) with
    | none => exact .cons h ih
    | some s =>
      obtain ⟨body, hbody, hwrite⟩ := broken_write (.inl ⟨l, h, rfl⟩ : IsLine _ []) hs
      dsimp only
      split_ifs
      · exact .cons h ih
      · exact ih
      · rw [hwrite]
        exact .cons hbody ih

/-- Without its unused import bindings, a script uses all that it imports. -/
lemma allUsed_restrict (hls : AreLines ls) (hwhole : ∀ l ∈ ls, isWhole l)
    (hcode : code.toList = ls.flatten) :
    AllUsed preserve (ls.flatMap (restrictLine (keptNames preserve code).contains)) := by
  have hreferenced : ∀ name, IsReferenced ls name →
      IsReferenced (ls.flatMap (restrictLine (keptNames preserve code).contains)) name := by
    rintro name ⟨l, hl, hs, hname⟩
    refine ⟨l, List.mem_flatMap.2 ⟨l, hl, ?_⟩, hs, hname⟩
    rw [restrictLine_of_none hs]
    exact List.mem_singleton_self l
  have hused : ∀ name, (keptNames preserve code).contains name → name ∈ preserve ∨
      IsReferenced (ls.flatMap (restrictLine (keptNames preserve code).contains)) name := by
    intro name hname
    rw [List.contains_iff_mem, mem_keptNames hls hwhole hcode] at hname
    exact hname.imp_right (hreferenced name)
  intro m hm s hs name hname
  obtain ⟨l, hl, hm⟩ := List.mem_flatMap.1 hm
  rcases restrictLine_cases hm with ⟨rfl, hall⟩ | ⟨t, -, -, -, ht, hall⟩
  · exact hused name (hall s hs name hname)
  · obtain rfl := Option.some.inj (ht.symm.trans hs)
    exact hused name (hall name hname)

end Restriction

end ViewWriter.Script
