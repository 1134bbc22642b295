import ViewWriter.Proofs.Script.LoadingUse
import ViewWriter.Proofs.Script.Replacement

/-! What a line imports, loads and names depends neither on its margin nor on its break, so the lines
of a script can be told with and without their breaks. -/

namespace ViewWriter.Script

open ViewWriter.Text

/-- What the break of a line does not count for. -/
def IgnoresBreak {α : Type} (f : List Char → α) : Prop := ∀ l, '\n' ∉ l → f (l ++ ['\n']) = f l

lemma IgnoresBreak.comp {α β : Type} {f : List Char → α} (hf : IgnoresBreak f) (g : α → β) :
    IgnoresBreak fun l => g (f l) :=
  fun l hl => congrArg g (hf l hl)

/-- The clause and the source of the import statement on a line. -/
def lineImport? (l : List Char) : Option (Clause × String) :=
  (lineStatement? l).map fun s => (s.clause, s.source)

section Margins

variable {framework : Framework} {weights : Table WeightedImport} {indent l : List Char}

lemma importLine?_eq (l : List Char) : importLine? framework weights l =
    (lineImport? l).bind fun e =>
      (componentBinding? framework e.1).bind fun name => component? weights name e.2 := by
  rw [importLine?, lineImport?]
  cases lineStatement? l <;> rfl

lemma lineImport?_margin (h : ∀ c ∈ indent, isMargin c) (l : List Char) :
    lineImport? (indent ++ l) = lineImport? l := by
  have hdrop : (indent ++ l).dropWhile isMargin = l.dropWhile isMargin :=
    List.dropWhile_append_of_pos h
  simp only [lineImport?, lineStatement?, importAt?, hdrop, Option.bind_eq_bind]
  cases stripPrefix? "import".toList (l.dropWhile isMargin) with
  | none => rfl
  | some after =>
    simp only [Option.bind_some]
    cases clauseText? (after.takeWhile fun c => !isQuote c && c != ';') with
    | none => rfl
    | some clause =>
      simp only [Option.bind_some]
      cases after.drop (after.takeWhile fun c => !isQuote c && c != ';').length with
      | nil => rfl
      | cons quote inside =>
        by_cases hquote : (!isQuote quote) = true
        · simp only [hquote, if_true, Option.bind_none]
        · simp only [hquote, Bool.false_eq_true, if_false]
          cases inside.drop (inside.takeWhile fun c => !isQuote c).length with
          | nil => rfl
          | cons closing rest =>
            dsimp only
            generalize (if rest.head? == some ';' then rest.drop 1 else rest) = ending
            split_ifs
            · rfl
            · cases lineEnd? ending with
              | none => rfl
              | some tail => cases Clause.parse? clause <;> rfl

lemma wrapperLine?_margin (h : ∀ c ∈ indent, isMargin c) (l : List Char) :
    wrapperLine? weights (indent ++ l) = wrapperLine? weights l := by
  have hdrop : (indent ++ l).dropWhile isMargin = l.dropWhile isMargin :=
    List.dropWhile_append_of_pos h
  simp only [wrapperLine?, lazyLineAt?, hdrop, Option.bind_eq_bind]
  cases stripPrefix? "const ".toList (l.dropWhile isMargin) with
  | none => rfl
  | some after =>
    simp only [Option.bind_some]
    split_ifs
    · rfl
    · cases stripPrefix? " = ".toList (after.drop (after.takeWhile isIdentifierPart).length) with
      | none => rfl
      | some call =>
        simp only [Option.bind_some]
        cases loader? call with
        | none => rfl
        | some r =>
          simp only [Option.bind_some]
          cases stripPrefix? [';'] r.2 with
          | none => rfl
          | some rest =>
            simp only [Option.bind_some]
            cases lineEnd? rest <;> rfl

lemma isPrimitiveLine_margin (h : ∀ c ∈ indent, isMargin c) (l : List Char) :
    isPrimitiveLine framework (indent ++ l) = isPrimitiveLine framework l := by
  have hdrop : (indent ++ l).dropWhile isMargin = l.dropWhile isMargin :=
    List.dropWhile_append_of_pos h
  have htext : ∀ text, (textLineAt? text (indent ++ l)).isSome = (textLineAt? text l).isSome := by
    intro text
    simp only [textLineAt?, hdrop, Option.bind_eq_bind]
    cases stripPrefix? text.toList (l.dropWhile isMargin) with
    | none => rfl
    | some rest =>
      simp only [Option.bind_some]
      cases lineEnd? rest <;> rfl
  simp only [isPrimitiveLine, htext]

/-! Lines that begin otherwise import and load nothing. -/

lemma lineImport?_of_head (h : (l.dropWhile isMargin).head? ≠ some 'i') : lineImport? l = none := by
  rw [lineImport?, lineStatement?, importAt?_of_head h]
  rfl

lemma wrapperLine?_of_head (h : (l.dropWhile isMargin).head? ≠ some 'c') :
    wrapperLine? weights l = none := by
  rw [wrapperLine?, lazyLineAt?_of_head h]
  rfl

lemma isPrimitiveLine_of_head (h : (l.dropWhile isMargin).head? ≠ some 'i') :
    isPrimitiveLine framework l = false := by
  rw [isPrimitiveLine, Option.any_eq_false]
  intro text htext
  rw [Option.isSome_eq_false_iff, Option.isNone_iff_eq_none, Option.eq_none_iff_forall_ne_some]
  exact fun m hm => h (head_of_textLineAt? htext hm).1

lemma head_of_blank (h : isBlankLine l = true) {c : Char} (hc : isBlank c = false) :
    (l.dropWhile isMargin).head? ≠ some c := by
  intro hhead
  have hmem : c ∈ l := (List.dropWhile_suffix _).mem (List.mem_of_head? hhead)
  rw [List.all_eq_true.1 h c hmem] at hc
  cases hc

lemma lineImport?_ignoresMargin : IgnoresMargin lineImport? where
  margin _ l h := lineImport?_margin h l
  blank l h := by
    rw [lineImport?_of_head (head_of_blank h (by decide)),
      lineImport?_of_head (head_of_blank (by decide) (by decide))]

lemma wrapperLine?_ignoresMargin : IgnoresMargin (wrapperLine? weights) where
  margin _ l h := wrapperLine?_margin h l
  blank l h := by
    rw [wrapperLine?_of_head (head_of_blank h (by decide)),
      wrapperLine?_of_head (head_of_blank (by decide) (by decide))]

lemma isPrimitiveLine_ignoresMargin : IgnoresMargin (isPrimitiveLine framework) where
  margin _ l h := isPrimitiveLine_margin h l
  blank l h := by
    rw [isPrimitiveLine_of_head (head_of_blank h (by decide)),
      isPrimitiveLine_of_head (head_of_blank (by decide) (by decide))]

lemma isWhole_ignoresMargin : IgnoresMargin isWhole where
  margin indent l h := by rw [isWhole, isWhole, List.dropWhile_append_of_pos h]
  blank l h := by
    rw [isWhole_of_head (head_of_blank h (by decide)), isWhole_of_head (by decide)]

lemma references_ignoresMargin : IgnoresMargin references where
  margin _ l h := references_margin h l
  blank l h := by rw [references_of_blank h, references_nil]

lemma boundLine?_ignoresMargin : IgnoresMargin (boundLine? framework weights) where
  margin indent l h := by
    rw [boundLine?, boundLine?, importLine?_eq, importLine?_eq, lineImport?_margin h,
      wrapperLine?_margin h]
  blank l h := by
    rw [boundLine?, boundLine?, importLine?_eq, importLine?_eq, lineImport?_ignoresMargin.blank l h,
      wrapperLine?_ignoresMargin.blank l h]

lemma isLoadingLine_ignoresMargin : IgnoresMargin (isLoadingLine framework weights) where
  margin indent l h := by
    rw [isLoadingLine, isLoadingLine, boundLine?_ignoresMargin.margin indent l h,
      isPrimitiveLine_margin h]
  blank l h := by
    rw [isLoadingLine, isLoadingLine, boundLine?_ignoresMargin.blank l h,
      isPrimitiveLine_ignoresMargin.blank l h]

end Margins

/-! Breaks. -/

section Breaks

variable {α : Type} {find? : List Char → Option (Match α)} {language : List Char → α → Prop}
  {framework : Framework} {weights : Table WeightedImport} {l : List Char}

lemma getLast?_of_suffix {front back : List Char} {c : Char} (h : '\n' ∉ c :: back) :
    (front ++ c :: back).getLast? ≠ some '\n' := by
  rw [List.getLast?_append_of_ne_nil _ (List.cons_ne_nil c back)]
  exact fun hlast => h (List.mem_of_getLast? hlast)

/-- Where no text ends with a break, the break of the line counts for nothing. -/
lemma EndsLines.ignoresBreak (hfind : EndsLines find? language)
    (hlast : ∀ text v, language text v → text.getLast? ≠ some '\n') :
    IgnoresBreak fun l => (find? l).map (·.value) := by
  intro l hl
  dsimp only
  cases h : find? l with
  | some m =>
    obtain ⟨text, ending, ht, he, -, hcs⟩ := hfind.shape _ m h
    obtain ⟨rfl, hrest⟩ : ending = [] ∧ m.rest = [] := by
      rcases he with rfl | he
      · exact absurd (hcs ▸ by simp) hl
      · exact he
    rw [hrest, List.append_nil, List.append_nil] at hcs
    have hbroken := hfind.text text m.value ['\n'] [] ht (.inl rfl)
    rw [List.append_nil, ← hcs] at hbroken
    rw [hbroken]
    rfl
  | none =>
    cases hm : find? (l ++ ['\n']) with
    | none => rfl
    | some m =>
      obtain ⟨text, ending, ht, he, -, hcs⟩ := hfind.shape _ m hm
      rcases he with rfl | ⟨rfl, hrest⟩
      · have hline : IsLine (l ++ ['\n']) [] := .inl ⟨l, hl, rfl⟩
        have hnil : m.rest = [] := hline.break_last hcs
        rw [hnil, List.append_nil] at hcs
        have halone := hfind.text text m.value [] [] ht (.inr ⟨rfl, rfl⟩)
        rw [List.append_nil, List.append_nil, ← List.append_cancel_right hcs, h] at halone
        cases halone
      · rw [hrest, List.append_nil, List.append_nil] at hcs
        exact absurd (hcs ▸ List.getLast?_concat) (hlast text m.value ht)

lemma lineStatement?_ignoresBreak : IgnoresBreak lineStatement? := by
  have hlast : ∀ text v, (∃ s clause, Shape.IsValid s clause ∧ v = s.statement clause ∧
      text = s.text) → text.getLast? ≠ some '\n' := by
    rintro _ _ ⟨s, clause, hs, -, rfl⟩
    have hquote : '\n' ≠ s.quote := fun e => absurd (e.symm ▸ hs.quote) (by decide)
    have hmargin : '\n' ∉ s.margin := fun h => absurd (hs.margin _ h) (by decide)
    have htail : '\n' ∉ s.quote :: s.tail := by
      cases hsemicolon : s.semicolon <;> simp [Shape.tail, hquote, hmargin, hsemicolon]
    have hsplit : s.text = (s.indent ++ ("import".toList ++ (s.between ++ s.quote :: s.source))) ++
        s.quote :: s.tail := by
      simp [Shape.text]
    rw [hsplit]
    exact getLast?_of_suffix htail
  intro l hl
  have hvalue := importAt?_endsLines.ignoresBreak hlast l hl
  have hjoin : ∀ l, lineStatement? l = ((importAt? l).map (·.value)).join := fun l => by
    rw [lineStatement?]
    cases importAt? l <;> rfl
  dsimp only at hvalue
  rw [hjoin, hjoin, hvalue]

lemma wrapperLine?_ignoresBreak : IgnoresBreak (wrapperLine? weights) := by
  have hlast : ∀ text v, (∃ w, Wrapper.IsValid w ∧ v = w.line ∧ text = w.text) →
      text.getLast? ≠ some '\n' := by
    rintro _ _ ⟨w, hw, -, rfl⟩
    have hmargin : '\n' ∉ w.margin := fun h => absurd (hw.margin _ h) (by decide)
    have hsplit : w.text = (w.head ++ (w.source ++ w.closing)) ++ ';' :: w.margin := by
      simp [Wrapper.text, Wrapper.tail]
    rw [hsplit]
    exact getLast?_of_suffix (by simp [hmargin])
  intro l hl
  have hvalue := lazyLineAt?_endsLines.ignoresBreak hlast l hl
  have hmap : ∀ l, wrapperLine? weights l = ((lazyLineAt? l).map (·.value)).bind fun v =>
      component? weights v.name v.source := fun l => by
    rw [wrapperLine?]
    cases lazyLineAt? l <;> rfl
  dsimp only at hvalue
  rw [hmap, hmap, hvalue]

lemma isPrimitiveLine_ignoresBreak : IgnoresBreak (isPrimitiveLine framework) := by
  intro l hl
  rw [isPrimitiveLine, isPrimitiveLine]
  cases hp : primitive? framework with
  | none => rfl
  | some text =>
    obtain ⟨cs, hcs, hbreak⟩ := primitive?_head hp
    have hlast : ∀ t v, (∃ margin, (∀ c ∈ v, isMargin c) ∧ (∀ c ∈ margin, isMargin c) ∧
        t = v ++ (text.toList ++ margin)) → t.getLast? ≠ some '\n' := by
      rintro _ v ⟨margin, -, hmargin, rfl⟩
      have hno : '\n' ∉ margin := fun h => absurd (hmargin _ h) (by decide)
      rw [hcs] at hbreak ⊢
      exact getLast?_of_suffix (by simpa [hno] using hbreak)
    have hvalue := (textLineAt?_endsLines hcs rfl).ignoresBreak hlast l hl
    have hsome := congrArg Option.isSome hvalue
    simpa using hsome

lemma importLine?_ignoresBreak : IgnoresBreak (importLine? framework weights) := fun l hl => by
  rw [importLine?, importLine?, lineStatement?_ignoresBreak l hl]

lemma boundLine?_ignoresBreak : IgnoresBreak (boundLine? framework weights) := fun l hl => by
  rw [boundLine?, boundLine?, importLine?_ignoresBreak l hl, wrapperLine?_ignoresBreak l hl]

lemma isLoadingLine_ignoresBreak : IgnoresBreak (isLoadingLine framework weights) := fun l hl => by
  rw [isLoadingLine, isLoadingLine, boundLine?_ignoresBreak l hl, isPrimitiveLine_ignoresBreak l hl]

lemma isWhole_ignoresBreak : IgnoresBreak isWhole := by
  intro l hl
  rw [isWhole, isWhole, dropWhile_append_stop rfl, stripPrefix?_append_break (by decide)]
  cases stripPrefix? "import".toList (l.dropWhile isMargin) with
  | none => rfl
  | some after =>
    have hhead : (after ++ ['\n']).head?.all isBlank = after.head?.all isBlank := by
      cases after with
      | nil => exact isBlank_break
      | cons c after => rfl
    have hquote : isQuote '\n' = false := by decide
    simp only [Option.map_some, hhead, List.dropWhile_append]
    cases after.dropWhile fun c => !isQuote c && c != ';' with
    | nil => simp [hquote]
    | cons c more => simp [hquote]

end Breaks

/-! Lines with and without their breaks. -/

section Lines

variable {α : Type} {f : List Char → α} {ls : List (List Char)} {cs : List Char}

lemma lines_flatten_cons {l : List Char} (h : '\n' ∉ l) (ls : List (List Char)) :
    lines (((l ++ ['\n']) :: ls).flatten) = l :: lines ls.flatten := by
  rw [List.flatten_cons, List.append_assoc]
  exact splitOn_append h ls.flatten

lemma forall_mem_lines_iff {P : List Char → Prop} (hnil : P [])
    (hbreak : ∀ l, '\n' ∉ l → (P (l ++ ['\n']) ↔ P l)) (hls : AreLines ls) :
    (∀ l ∈ lines ls.flatten, P l) ↔ ∀ l ∈ ls, P l := by
  induction hls with
  | nil => simpa [lines, splitOn] using hnil
  | @last l hne h =>
    have hline : lines [l].flatten = [l] := by simpa [lines] using splitOn_of_notMem h
    rw [hline]
  | @cons l ls h _ ih =>
    rw [lines_flatten_cons h, List.forall_mem_cons, List.forall_mem_cons, ih, hbreak l h]

lemma exists_mem_lines_iff {P : List Char → Prop} (hnil : ¬P [])
    (hbreak : ∀ l, '\n' ∉ l → (P (l ++ ['\n']) ↔ P l)) (hls : AreLines ls) :
    (∃ l ∈ lines ls.flatten, P l) ↔ ∃ l ∈ ls, P l := by
  have hnone := forall_mem_lines_iff (P := fun l => ¬P l) hnil (fun l hl => not_congr (hbreak l hl)) hls
  rw [← not_iff_not]
  simpa using hnone

lemma forall_codeLines_iff {a : α} (hnil : f [] = a) (hf : IgnoresBreak f) (cs : List Char) :
    (∀ l ∈ lines cs, f l = a) ↔ ∀ l ∈ codeLines cs, f l = a := by
  have hlines := forall_mem_lines_iff (P := fun l => f l = a) hnil
    (fun l hl => by rw [hf l hl]) (areLines_codeLines cs)
  rwa [flatten_codeLines] at hlines

variable {preserve : List String} {name : String}

lemma isReferenced_lines_iff (hls : AreLines ls) :
    IsReferenced (lines ls.flatten) name ↔ IsReferenced ls name := by
  refine exists_mem_lines_iff ?_ (fun l hl => ?_) hls
  · simp [references_nil]
  · rw [lineStatement?_ignoresBreak l hl, references_line]

lemma allUsed_lines_iff (hls : AreLines ls) :
    AllUsed preserve (lines ls.flatten) ↔ AllUsed preserve ls := by
  simp only [AllUsed, isReferenced_lines_iff hls]
  refine forall_mem_lines_iff ?_ (fun l hl => ?_) hls
  · intro s hs
    cases hs
  · rw [lineStatement?_ignoresBreak l hl]

end Lines

end ViewWriter.Script
