import ViewWriter.Proofs.Script.CodeLines

/-! Matchers that take a text and the end of its line. On a line that holds the text, they find it
whatever comes on the lines after. -/

namespace ViewWriter.Script

open ViewWriter.Text

/-- A matcher that finds the texts of a language where their line ends, and nothing else. -/
structure EndsLines {α : Type} (find? : List Char → Option (Match α))
    (language : List Char → α → Prop) : Prop where
  shape : ∀ cs m, find? cs = some m → ∃ text ending, language text m.value ∧ IsEnd ending m.rest ∧
    m.raw = text ++ ending ∧ cs = text ++ (ending ++ m.rest)
  text : ∀ text v ending rest, language text v → IsEnd ending rest →
    find? (text ++ (ending ++ rest)) = some ⟨v, text ++ ending, rest⟩

lemma break_unique {l m cs ds : List Char} (hl : '\n' ∉ l) (hm : '\n' ∉ m)
    (h : l ++ '\n' :: cs = m ++ '\n' :: ds) : l = m ∧ cs = ds := by
  have hbreak : ('\n' != '\n') = false := by decide
  have hno : ∀ {k : List Char}, '\n' ∉ k → ∀ c ∈ k, (c != '\n') = true :=
    fun hk c hc => by simpa using ne_of_mem_of_not_mem hc hk
  have hsame := congrArg (List.takeWhile (· != '\n')) h
  rw [takeWhile_stop (hno hl) hbreak, takeWhile_stop (hno hm) hbreak] at hsame
  rw [hsame] at h
  exact ⟨hsame, (List.cons.inj (List.append_cancel_left h)).2⟩

section EndsLines

variable {α : Type} {find? : List Char → Option (Match α)} {language : List Char → α → Prop}
  {l text ending rest rest' : List Char}

lemma take_of_append {cs front rest : List Char} (h : cs = front ++ rest) :
    cs.take (cs.length - rest.length) = front := by
  rw [h, List.length_append, Nat.add_sub_cancel, List.take_left]

lemma IsLine.eq_text (hl : IsLine l rest) (ht : '\n' ∉ text) (he : IsEnd ending rest')
    (h : l ++ rest = text ++ (ending ++ rest')) : l = text ++ ending ∧ rest = rest' := by
  rcases hl with ⟨body, hbody, rfl⟩ | ⟨-, hno, rfl⟩
  · rcases he with rfl | ⟨rfl, rfl⟩
    · obtain ⟨rfl, rfl⟩ := break_unique hbody ht (by simpa using h)
      exact ⟨rfl, rfl⟩
    · rw [List.append_nil, List.append_nil] at h
      exact absurd (h ▸ by simp) ht
  · rw [List.append_nil] at h
    rcases he with rfl | ⟨rfl, rfl⟩
    · exact absurd (h ▸ by simp) hno
    · simpa using h

lemma IsLine.alone (h : IsLine l rest) : IsLine l [] := by
  rcases h with hbody | ⟨hne, hno, -⟩
  · exact .inl hbody
  · exact .inr ⟨hne, hno, rfl⟩

/-- Texts without line breaks are found at a line as if it stood alone. -/
lemma EndsLines.find?_line (hfind : EndsLines find? language) (hline : IsLine l rest)
    (hno : ∀ more text v ending rest', more = rest ∨ more = [] → language text v →
      IsEnd ending rest' → l ++ more = text ++ (ending ++ rest') → '\n' ∉ text) :
    find? (l ++ rest) = (find? l).map fun m => ⟨m.value, l, rest⟩ := by
  cases h : find? (l ++ rest) with
  | some m =>
    obtain ⟨text, ending, ht, he, hraw, hcs⟩ := hfind.shape _ m h
    have hbreak := hno rest text m.value ending m.rest (.inl rfl) ht he hcs
    obtain ⟨rfl, rfl⟩ := hline.eq_text hbreak he hcs
    have hend : IsEnd ending [] := by
      rcases he with rfl | ⟨rfl, -⟩
      · exact .inl rfl
      · exact .inr ⟨rfl, rfl⟩
    have halone := hfind.text text m.value ending [] ht hend
    rw [List.append_nil] at halone
    rw [halone, ← hraw]
    rfl
  | none =>
    cases halone : find? l with
    | none => rfl
    | some m =>
      obtain ⟨text, ending, ht, he, -, hcs⟩ := hfind.shape _ m halone
      have hbreak := hno [] text m.value ending m.rest (.inr rfl) ht he (by simpa using hcs)
      obtain ⟨rfl, hrest⟩ := hline.alone.eq_text hbreak he (by simpa using hcs)
      have hend : IsEnd ending rest := by
        rcases he with rfl | ⟨rfl, -⟩
        · exact .inl rfl
        · rcases hline with ⟨body, -, hbody⟩ | ⟨-, -, rfl⟩
          · rw [List.append_nil] at hbody
            exact absurd (by simp [hbody]) hbreak
          · exact .inr ⟨rfl, rfl⟩
      have hfound := hfind.text text m.value ending rest ht hend
      rw [← List.append_assoc, h] at hfound
      cases hfound

lemma EndsLines.decides (hfind : EndsLines find? language)
    (hl : ∀ rest text v ending rest', IsLine l rest → language text v → IsEnd ending rest' →
      l ++ rest = text ++ (ending ++ rest') → '\n' ∉ text) :
    Decides find? (fun l => (find? l).map (·.value)) l := by
  intro rest hline
  rw [hfind.find?_line hline, Option.map_map]
  · rfl
  · intro more text v ending rest' hmore
    refine hl more text v ending rest' ?_
    rcases hmore with rfl | rfl
    · exact hline
    · exact hline.alone

end EndsLines

/-! Import statements. -/

/-- The import statement on a line. -/
def lineStatement? (l : List Char) : Option Statement := (importAt? l).bind (·.value)

/-- Whether a line whose first word is `import` has the rest of a statement, too: a semicolon, or a
source in quotes. -/
def isWhole (l : List Char) : Bool :=
  match stripPrefix? "import".toList (l.dropWhile isMargin) with
  | none => true
  | some after =>
    !after.head?.all isBlank ||
      match after.dropWhile fun c => !isQuote c && c != ';' with
      | [] => false
      | c :: more => c == ';' || more.any isQuote

lemma importAt?_endsLines : EndsLines importAt? fun text v =>
    ∃ s clause, Shape.IsValid s clause ∧ v = s.statement clause ∧ text = s.text where
  shape cs m h := by
    obtain ⟨s, clause, ending, hs, he, hv, hraw, hcs⟩ := exists_shape h
    exact ⟨s.text, ending, ⟨s, clause, hs, hv, rfl⟩, he, hraw, hcs⟩
  text text v ending rest h he := by
    obtain ⟨s, clause, hs, rfl, rfl⟩ := h
    exact importAt?_text hs he

section Imports

variable {s : Shape} {clause indent between l : List Char}

lemma isRead_of_lineStatement? {st : Statement} (h : lineStatement? l = some st) : st.IsRead := by
  obtain ⟨m, hm, hs⟩ := Option.bind_eq_some_iff.1 h
  obtain ⟨shape, clause, ending, hshape, -, hv, -, -⟩ := exists_shape hm
  exact Statement.isRead_of_shape hshape (hv.symm.trans hs)

lemma isBlank_break : isBlank '\n' = true := by decide

lemma prefix_of_beforeFrom? {cs before : List Char} (h : beforeFrom? cs = some before) :
    before <+: cs := by
  simp only [beforeFrom?] at h
  split_ifs at h
  split at h
  · rename_i rest hrest
    obtain rfl := Option.some.inj h
    have htrimmed := congrArg List.reverse (stripPrefix?_eq_some_iff.1 hrest)
    rw [List.reverse_reverse, List.reverse_append] at htrimmed
    have hprefix : trimEnd isBlank cs <+: cs := by
      rw [trimEnd_eq_rdropWhile]
      exact List.rdropWhile_prefix isBlank cs
    exact (List.prefix_append _ _).trans (htrimmed ▸ hprefix)
  · cases h

lemma head_of_clauseText? (h : clauseText? between = some clause) :
    ∃ c rest, between = c :: rest ∧ isBlank c = true := by
  simp only [clauseText?, Option.bind_eq_bind, Option.bind_eq_some_iff] at h
  obtain ⟨before, hbefore, h⟩ := h
  obtain ⟨rest, rfl⟩ := prefix_of_beforeFrom? hbefore
  split at h
  · rename_i c before last hlast
    by_cases hc : isBlank c = true
    · exact ⟨c, before ++ rest, rfl, hc⟩
    · simp [hc] at h
  · cases h

lemma isWhole_eq (hindent : ∀ c ∈ indent, isMargin c) (after : List Char) :
    isWhole (indent ++ ("import".toList ++ after)) = (!after.head?.all isBlank ||
      match after.dropWhile fun c => !isQuote c && c != ';' with
      | [] => false
      | c :: more => c == ';' || more.any isQuote) := by
  have hdrop : (indent ++ ("import".toList ++ after)).dropWhile isMargin =
      "import".toList ++ after := dropWhile_stop hindent rfl
  have hstrip : stripPrefix? "import".toList ("import".toList ++ after) = some after :=
    stripPrefix?_eq_some_iff.2 rfl
  rw [isWhole, hdrop, hstrip]

lemma not_isWhole_between (hindent : ∀ c ∈ indent, isMargin c) {front back : List Char}
    (hclause : clauseText? (front ++ '\n' :: back) = some clause)
    (hfront : ∀ c ∈ front, (!isQuote c && c != ';') = true) :
    isWhole (indent ++ ("import".toList ++ front) ++ ['\n']) = false := by
  have hall : ∀ c ∈ front ++ ['\n'], (!isQuote c && c != ';') = true := by
    intro c hc
    rcases List.mem_append.1 hc with hc | hc
    · exact hfront c hc
    · exact List.mem_singleton.1 hc ▸ by decide
  have hhead : (front ++ ['\n']).head?.all isBlank = true := by
    cases front with
    | nil => exact isBlank_break
    | cons c front =>
      obtain ⟨d, rest, hd, hblank⟩ := head_of_clauseText? hclause
      obtain ⟨rfl, -⟩ := List.cons.inj hd
      exact hblank
  rw [List.append_assoc, List.append_assoc, isWhole_eq hindent, hhead,
    List.dropWhile_eq_nil_iff.2 hall]
  rfl

lemma not_isWhole_source (hs : s.IsValid clause) {front back : List Char}
    (hsource : s.source = front ++ '\n' :: back) :
    isWhole (s.indent ++ ("import".toList ++ (s.between ++ s.quote :: front)) ++ ['\n']) =
      false := by
  have hstop : (!isQuote s.quote && s.quote != ';') = false := by simp [hs.quote]
  have hsemicolon : (s.quote == ';') = false := by
    have hquote := hs.quote
    refine beq_eq_false_iff_ne.2 fun e => ?_
    rw [e] at hquote
    exact absurd hquote (by decide)
  have hnone : (front ++ ['\n']).any isQuote = false := by
    refine List.any_eq_false.2 fun c hc => ?_
    have hmem : c ∈ s.source := by
      rw [hsource]
      rcases List.mem_append.1 hc with hc | hc
      · exact List.mem_append_left _ hc
      · exact List.mem_append_right _ (List.mem_singleton.1 hc ▸ List.mem_cons_self)
    simpa using hs.source c hmem
  obtain ⟨c, rest, hbetween, hblank⟩ := head_of_clauseText? hs.clause
  have hhead : (s.between ++ s.quote :: front ++ ['\n']).head?.all isBlank = true := by
    rw [hbetween]
    exact hblank
  rw [List.append_assoc, List.append_assoc, isWhole_eq hs.indent, hhead, List.append_assoc,
    List.cons_append, dropWhile_stop hs.between hstop]
  simp [hsemicolon, hnone]

lemma notMem_text {body rest more : List Char} (hs : s.IsValid clause) (hbody : '\n' ∉ body)
    (hwhole : isWhole (body ++ ['\n'])) (h : s.text ++ more = body ++ '\n' :: rest) :
    '\n' ∉ s.text := by
  have hindent : '\n' ∉ s.indent := fun hm => absurd (hs.indent _ hm) (by decide)
  have hword : '\n' ∉ "import".toList := by decide
  by_cases hbetween : '\n' ∈ s.between
  · obtain ⟨front, back, hsplit, hfront⟩ := List.eq_append_cons_of_mem hbetween
    have htext : (s.indent ++ ("import".toList ++ front)) ++ '\n' :: (back ++ s.quote ::
        (s.source ++ s.quote :: s.tail) ++ more) = body ++ '\n' :: rest := by
      rw [← h, Shape.text, hsplit]
      simp
    obtain ⟨rfl, -⟩ := break_unique (by simp [hindent, hfront]) hbody htext
    rw [not_isWhole_between hs.indent (hsplit ▸ hs.clause) fun c hc =>
      hs.between c (by simp [hsplit, hc])] at hwhole
    cases hwhole
  · by_cases hsource : '\n' ∈ s.source
    · obtain ⟨front, back, hsplit, hfront⟩ := List.eq_append_cons_of_mem hsource
      have hquote : s.quote ≠ '\n' := fun e => absurd (e ▸ hs.quote) (by decide)
      have htext : (s.indent ++ ("import".toList ++ (s.between ++ s.quote :: front))) ++
          '\n' :: (back ++ s.quote :: s.tail ++ more) = body ++ '\n' :: rest := by
        rw [← h, Shape.text, hsplit]
        simp
      obtain ⟨rfl, -⟩ := break_unique (by simp [hindent, hfront, hbetween, hquote.symm]) hbody htext
      rw [not_isWhole_source hs hsplit] at hwhole
      cases hwhole
    · have hquote : '\n' ≠ s.quote := fun e => absurd (e.symm ▸ hs.quote) (by decide)
      have hmargin : '\n' ∉ s.margin := fun hm => absurd (hs.margin _ hm) (by decide)
      have htail : '\n' ∉ s.tail := by
        rw [Shape.tail]
        split_ifs <;> simp [hmargin]
      simp [Shape.text, hindent, hbetween, hsource, hquote, htail]

lemma isWhole.decides (h : isWhole l) :
    Decides importAt? (fun l => (importAt? l).map (·.value)) l := by
  refine importAt?_endsLines.decides ?_
  rintro rest _ v ending rest' hl ⟨s, clause, hs, -, rfl⟩ he hcs
  rcases hl with ⟨body, hbody, rfl⟩ | ⟨-, hno, rfl⟩
  · rw [List.append_assoc, List.singleton_append] at hcs
    exact notMem_text hs hbody h hcs.symm
  · rw [List.append_nil] at hcs
    exact fun hmem => hno (by simp [hcs, hmem])

end Imports

/-! Lines with a given text. -/

lemma textLineAt?_endsLines {text : String} {c : Char} {cs : List Char}
    (htext : text.toList = c :: cs) (hc : isMargin c = false) :
    EndsLines (textLineAt? text) fun t v => ∃ margin, (∀ c ∈ v, isMargin c) ∧
      (∀ c ∈ margin, isMargin c) ∧ t = v ++ (text.toList ++ margin) where
  shape all m h := by
    simp only [textLineAt?, Option.bind_eq_bind, Option.bind_eq_some_iff] at h
    obtain ⟨rest, hrest, tail, htail, h⟩ := h
    obtain ⟨margin, ending, hmargin, he, hcs⟩ := lineEnd?_cases htail
    obtain rfl := Option.some.inj h
    have hall := List.takeWhile_append_dropWhile (p := isMargin) (l := all)
    rw [stripPrefix?_eq_some_iff.1 hrest, hcs] at hall
    have hshape : all = all.takeWhile isMargin ++ (text.toList ++ margin) ++ (ending ++ tail.rest) := by
      simpa using hall.symm
    have hraw : all = (all.takeWhile isMargin ++ (text.toList ++ margin) ++ ending) ++ tail.rest := by
      simpa using hshape
    exact ⟨_, ending, ⟨margin, fun c hc => List.mem_takeWhile_imp hc, hmargin, rfl⟩, he,
      take_of_append hraw, hshape⟩
  text t v ending rest h he := by
    obtain ⟨margin, hv, hmargin, rfl⟩ := h
    generalize hall : v ++ (text.toList ++ margin) ++ (ending ++ rest) = all
    have hsplit : all = v ++ c :: (cs ++ (margin ++ (ending ++ rest))) := by simp [← hall, htext]
    have hraw : all = (v ++ (text.toList ++ margin) ++ ending) ++ rest := by simp [← hall]
    have hindent : all.takeWhile isMargin = v := by rw [hsplit, takeWhile_stop hv hc]
    have hstrip : stripPrefix? text.toList (all.dropWhile isMargin) =
        some (margin ++ (ending ++ rest)) := by
      rw [hsplit, dropWhile_stop hv hc, stripPrefix?_eq_some_iff]
      simp [htext]
    rw [textLineAt?, hstrip, Option.bind_eq_bind, Option.bind_some, lineEnd?_margin hmargin he,
      hindent]
    simp [take_of_append hraw]

end ViewWriter.Script
