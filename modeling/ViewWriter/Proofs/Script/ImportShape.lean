import ViewWriter.Proofs.Script.Clause

/-! The shape of import statements: what is found at a line start, whatever comes after it, and how
a statement that was read and written is read again. -/

namespace ViewWriter.Script

open ViewWriter.Text

/-- The parts of a text that looks like an import statement, up to the end of its line. -/
structure Shape where
  indent : List Char
  between : List Char
  quote : Char
  source : List Char
  semicolon : Bool
  margin : List Char

namespace Shape

def tail (s : Shape) : List Char := (if s.semicolon then [';'] else []) ++ s.margin

def text (s : Shape) : List Char :=
  s.indent ++ ("import".toList ++ (s.between ++ s.quote :: (s.source ++ s.quote :: s.tail)))

def statement (s : Shape) (clause : List Char) : Option Statement :=
  (Clause.parse? clause).map fun c => ⟨s.indent, c, s.quote, String.ofList s.source, s.semicolon⟩

structure IsValid (s : Shape) (clause : List Char) : Prop where
  indent : ∀ c ∈ s.indent, isMargin c
  between : ∀ c ∈ s.between, (!isQuote c && c != ';') = true
  clause : clauseText? s.between = some clause
  quote : isQuote s.quote = true
  source_ne : s.source ≠ []
  source : ∀ c ∈ s.source, (!isQuote c) = true
  margin : ∀ c ∈ s.margin, isMargin c

end Shape

/-- The end of a line: a line break, or nothing at the end of a text. -/
def IsEnd (ending rest : List Char) : Prop := ending = ['\n'] ∨ ending = [] ∧ rest = []

section Shapes

variable {s : Shape} {clause cs ending rest : List Char}

lemma lineEnd?_margin {margin : List Char} (h : ∀ c ∈ margin, isMargin c) (he : IsEnd ending rest) :
    lineEnd? (margin ++ (ending ++ rest)) = some ⟨(), margin ++ ending, rest⟩ := by
  rcases he with rfl | ⟨rfl, rfl⟩
  · have hbreak : isMargin '\n' = false := rfl
    simp only [List.singleton_append, lineEnd?, dropWhile_stop h hbreak, takeWhile_stop h hbreak]
  · have htake : margin.takeWhile isMargin = margin := List.takeWhile_eq_self_iff.2 h
    have hdrop : margin.dropWhile isMargin = [] := List.dropWhile_eq_nil_iff.2 h
    simp [lineEnd?, htake, hdrop]

lemma lineEnd?_cases {m : Match Unit} (h : lineEnd? cs = some m) :
    ∃ margin ending, (∀ c ∈ margin, isMargin c) ∧ IsEnd ending m.rest ∧
      cs = margin ++ (ending ++ m.rest) := by
  unfold lineEnd? at h
  have hsplit := List.takeWhile_append_dropWhile (p := isMargin) (l := cs)
  have hmargin : ∀ c ∈ cs.takeWhile isMargin, isMargin c := fun c hc => List.mem_takeWhile_imp hc
  split at h
  · rename_i hnil
    obtain rfl := Option.some.inj h
    rw [hnil] at hsplit
    exact ⟨_, [], hmargin, .inr ⟨rfl, rfl⟩, hsplit.symm⟩
  · rename_i rest hrest
    obtain rfl := Option.some.inj h
    rw [hrest] at hsplit
    exact ⟨_, ['\n'], hmargin, .inl rfl, hsplit.symm⟩
  · cases h

lemma lineEnd?_tail (h : ∀ c ∈ s.margin, isMargin c) (he : IsEnd ending rest) :
    ((s.tail ++ (ending ++ rest)).head? == some ';') = s.semicolon ∧
      lineEnd? (if s.semicolon then (s.tail ++ (ending ++ rest)).drop 1
        else s.tail ++ (ending ++ rest)) = some ⟨(), s.margin ++ ending, rest⟩ := by
  unfold Shape.tail
  cases s.semicolon with
  | true => exact ⟨rfl, lineEnd?_margin h he⟩
  | false =>
    refine ⟨?_, lineEnd?_margin h he⟩
    cases hmargin : s.margin with
    | nil => rcases he with rfl | ⟨rfl, rfl⟩ <;> rfl
    | cons c margin =>
      have hc : c ≠ ';' := by
        rintro rfl
        exact absurd (h ';' (hmargin ▸ List.mem_cons_self)) (by decide)
      simpa using hc

lemma importAt?_text (h : s.IsValid clause) (he : IsEnd ending rest) :
    importAt? (s.text ++ (ending ++ rest)) =
      some ⟨s.statement clause, s.text ++ ending, rest⟩ := by
  have hcs : s.text ++ (ending ++ rest) = s.indent ++ 'i' :: ("mport".toList ++ (s.between ++
      s.quote :: (s.source ++ s.quote :: (s.tail ++ (ending ++ rest))))) := by
    simp [Shape.text]
  have hstrip : ∀ cs, stripPrefix? "import".toList ('i' :: ("mport".toList ++ cs)) = some cs :=
    fun cs => stripPrefix?_eq_some_iff.2 rfl
  have hquote : (!isQuote s.quote && s.quote != ';') = false := by simp [h.quote]
  have hstop : (!isQuote s.quote) = false := by simp [h.quote]
  obtain ⟨hsemicolon, hend⟩ := lineEnd?_tail h.margin he
  have htake : (s.text ++ (ending ++ rest)).take
      ((s.text ++ (ending ++ rest)).length - rest.length) = s.text ++ ending := by
    rw [← List.append_assoc, List.length_append, Nat.add_sub_cancel, List.take_left]
  have hsource : (s.quote != s.quote || s.source.isEmpty) = false := by simp [h.source_ne]
  have hmargin : isMargin 'i' = false := rfl
  rw [hcs] at htake ⊢
  unfold importAt?
  simp only [dropWhile_stop h.indent hmargin, takeWhile_stop h.indent hmargin, hstrip,
    Option.bind_eq_bind, Option.bind_some, takeWhile_stop h.between hquote, List.drop_left, h.clause,
    takeWhile_stop h.source hstop, hsemicolon, hend, hstop, hsource, htake, Bool.false_eq_true,
    ↓reduceIte]
  rfl

lemma exists_tail {after : List Char} {m : Match Unit} {semicolon : Bool}
    (hs : (after.head? == some ';') = semicolon)
    (h : lineEnd? (if semicolon then after.drop 1 else after) = some m) :
    ∃ margin ending, (∀ c ∈ margin, isMargin c) ∧ IsEnd ending m.rest ∧
      after = (if semicolon then [';'] else []) ++ margin ++ (ending ++ m.rest) := by
  obtain ⟨margin, ending, hmargin, he, hcs⟩ := lineEnd?_cases h
  refine ⟨margin, ending, hmargin, he, ?_⟩
  cases semicolon with
  | true =>
    cases after with
    | nil => cases hs
    | cons c after =>
      obtain rfl : c = ';' := by simpa using hs
      exact congrArg (';' :: ·) (by simpa using hcs)
  | false => simpa using hcs

lemma exists_shape {m : Match (Option Statement)} (h : importAt? cs = some m) :
    ∃ s clause ending, Shape.IsValid s clause ∧ IsEnd ending m.rest ∧
      m.value = s.statement clause ∧ m.raw = s.text ++ ending ∧ cs = s.text ++ (ending ++ m.rest) := by
  unfold importAt? at h
  simp only [Option.bind_eq_bind, Option.bind_eq_some_iff] at h
  obtain ⟨afterWord, hword, clause, hclause, h⟩ := h
  have hcs := List.takeWhile_append_dropWhile (p := isMargin) (l := cs)
  rw [stripPrefix?_eq_some_iff.1 hword] at hcs
  have hindent : ∀ c ∈ cs.takeWhile isMargin, isMargin c := fun c hc => List.mem_takeWhile_imp hc
  generalize cs.takeWhile isMargin = indent at h hcs hindent
  have hafter := List.takeWhile_append_dropWhile (p := fun c => !isQuote c && c != ';')
    (l := afterWord)
  rw [drop_takeWhile] at h
  have hbetween : ∀ c ∈ afterWord.takeWhile (fun c => !isQuote c && c != ';'),
      (!isQuote c && c != ';') = true :=
    fun c hc => List.mem_takeWhile_imp (p := fun c => !isQuote c && c != ';') hc
  generalize afterWord.takeWhile (fun c => !isQuote c && c != ';') = between
    at h hafter hclause hbetween
  split at h
  · rename_i quote inside hinside
    split_ifs at h with hquote
    rw [drop_takeWhile] at h
    have hsplit := List.takeWhile_append_dropWhile (p := fun c => !isQuote c) (l := inside)
    have hsource : ∀ c ∈ inside.takeWhile (fun c => !isQuote c), (!isQuote c) = true :=
      fun c hc => List.mem_takeWhile_imp (p := fun c => !isQuote c) hc
    generalize inside.takeWhile (fun c => !isQuote c) = source at h hsplit hsource
    split at h
    · rename_i closing after hclosing
      by_cases hends : (closing != quote || source.isEmpty) = true
      · rw [if_pos hends] at h
        cases h
      rw [if_neg hends] at h
      obtain ⟨tail, htail, h⟩ := Option.bind_eq_some_iff.1 h
      obtain ⟨margin, ending, hmargin, he, hrest⟩ := exists_tail rfl htail
      simp only [Bool.or_eq_true, not_or, bne_iff_ne, not_not, List.isEmpty_iff] at hends
      obtain ⟨rfl, hne⟩ := hends
      have hall : cs = Shape.text ⟨indent, between, closing, source, after.head? == some ';', margin⟩ ++
          (ending ++ tail.rest) := by
        rw [← hcs, ← hafter, hinside, ← hsplit, hclosing]
        nth_rewrite 1 [hrest]
        simp [Shape.text, Shape.tail]
      have htake : cs.take (cs.length - tail.rest.length) =
          Shape.text ⟨indent, between, closing, source, after.head? == some ';', margin⟩ ++ ending := by
        rw [hall, ← List.append_assoc, List.length_append, Nat.add_sub_cancel, List.take_left]
      obtain rfl := Option.some.inj h
      exact ⟨_, clause, ending, ⟨hindent, hbetween, hclause, by simpa using hquote, hne, hsource,
        hmargin⟩, he, rfl, htake, hall⟩
    · cases h
  · cases h

end Shapes

/-- A statement with identifiers for names, and a source that its quotes can hold. -/
structure Statement.IsRead (s : Statement) : Prop where
  indent : ∀ c ∈ s.indent, isMargin c
  clause : s.clause.IsRead
  quote : isQuote s.quote = true
  source_ne : s.source.toList ≠ []
  source : ∀ c ∈ s.source.toList, (!isQuote c) = true

namespace Statement

lemma isRead_of_shape {s : Shape} {clause : List Char} {st : Statement} (h : s.IsValid clause)
    (hs : s.statement clause = some st) : st.IsRead := by
  obtain ⟨c, hc, rfl⟩ := Option.map_eq_some_iff.1 hs
  refine ⟨h.indent, Clause.isRead_of_parse? hc, h.quote, ?_, ?_⟩
  · simpa using h.source_ne
  · simpa using h.source

def shape (s : Statement) : Shape :=
  ⟨s.indent, ' ' :: (s.clause.write.toList ++ " from ".toList), s.quote, s.source.toList,
    s.semicolon, []⟩

lemma toList_write (s : Statement) : s.write.toList = s.shape.text ++ ['\n'] := by
  unfold Statement.write shape Shape.text Shape.tail
  cases s.semicolon <;> simp

/-- The statement as it is read again, without braces around nothing. -/
def reread (s : Statement) : Statement :=
  { s with clause := { s.clause with braces := !s.clause.named.isEmpty } }

lemma beforeFrom?_append (cs : List Char) : beforeFrom? (cs ++ "from ".toList) = some cs := by
  have hspace : ([' '] : List Char).all isBlank = true := by decide
  have hsplit : cs ++ "from ".toList = (cs ++ "from".toList) ++ [' '] := by simp
  have htrim : trimEnd isBlank (cs ++ "from ".toList) = cs ++ "from".toList := by
    rw [hsplit, trimEnd_append_of_all _ _ hspace, trimEnd_eq_rdropWhile]
    have hlast : cs ++ "from".toList = (cs ++ "fro".toList) ++ ['m'] := by simp
    rw [hlast, List.rdropWhile_concat_neg _ _ _ (by decide)]
  have hlength : ((cs ++ "from".toList).length == (cs ++ "from ".toList).length) = false := by
    simp
  have hstrip : stripPrefix? "morf".toList (cs ++ "from".toList).reverse = some cs.reverse := by
    rw [stripPrefix?_eq_some_iff, List.reverse_append]
    rfl
  simp only [beforeFrom?, htrim, hlength, hstrip, Bool.false_eq_true, ↓reduceIte,
    List.reverse_reverse]

lemma clauseText?_write {w : List Char} (h : Spaced w) :
    clauseText? (' ' :: (w ++ " from ".toList)) = some w := by
  have hsplit : ' ' :: (w ++ " from ".toList) = (' ' :: (w ++ [' '])) ++ "from ".toList := by simp
  have hlast : (' ' :: (w ++ [' '])).getLast? = some ' ' := by
    rw [← List.cons_append, List.getLast?_concat]
  have hbefore : beforeFrom? (' ' :: (w ++ " from ".toList)) = some (' ' :: (w ++ [' '])) := by
    rw [hsplit, beforeFrom?_append]
  have htrim : trim isBlank (' ' :: (w ++ [' '])) = w := by
    have hspace : ∀ c ∈ [' '], isBlank c := List.forall_mem_singleton.2 isBlank_space
    have hfirst := @trim_append_of_all isBlank [' '] hspace (w ++ [' '])
    rw [List.singleton_append] at hfirst
    rw [hfirst, trim_append_end hspace, h.trim]
  rw [clauseText?, hbefore, Option.bind_eq_bind, Option.bind_some, hlast]
  simp [htrim, isBlank_space, h.ne_nil]

variable {s : Statement}

lemma shape_isValid (h : s.IsRead) (hne : s.clause.isEmpty = false) :
    s.shape.IsValid s.clause.write.toList where
  indent := h.indent
  between := by
    have hno : ∀ a, isIdentifierPart a = false → a ∉ [' ', ',', '*', '\x7b', '\x7d'] →
        a ∉ " from ".toList → a ∉ s.shape.between := by
      intro a ha hs hf hmem
      rcases List.mem_cons.1 hmem with rfl | hmem
      · exact hs List.mem_cons_self
      · rcases List.mem_append.1 hmem with hmem | hmem
        · exact Clause.notMem_write h.clause ha hs hmem
        · exact hf hmem
    intro c hc
    have hapostrophe := hno '\'' (by decide) (by decide) (by decide)
    have hquote := hno '"' (by decide) (by decide) (by decide)
    have hsemicolon := hno ';' (by decide) (by decide) (by decide)
    have h₁ : c ≠ '\'' := fun e => hapostrophe (e ▸ hc)
    have h₂ : c ≠ '"' := fun e => hquote (e ▸ hc)
    have h₃ : c ≠ ';' := fun e => hsemicolon (e ▸ hc)
    simp [isQuote, h₁, h₂, h₃]
  clause := clauseText?_write (Clause.spaced_write h.clause hne)
  quote := h.quote
  source_ne := h.source_ne
  source := h.source
  margin := by simp [shape]

lemma IsRead.restrict (h : s.IsRead) (used : String → Bool) :
    IsRead { s with clause := s.clause.restrict used } :=
  { h with
    clause := {
      default := fun d hd => h.clause.default d (Option.eq_some_of_filter_eq_some hd)
      namespaceName := fun n hn => h.clause.namespaceName n (Option.eq_some_of_filter_eq_some hn)
      named := fun n hn => h.clause.named n (List.mem_of_mem_filter hn) } }

lemma write_ne_nil (s : Statement) : s.write.toList ≠ [] := by simp [toList_write]

/-- A statement that was read and then written is read again, whatever comes after it. -/
lemma importAt?_write (h : s.IsRead) (hne : s.clause.isEmpty = false) (rest : List Char) :
    importAt? (s.write.toList ++ rest) = some ⟨some s.reread, s.write.toList, rest⟩ := by
  have hfound := importAt?_text (shape_isValid h hne) (.inl rfl : IsEnd ['\n'] rest)
  rw [toList_write, List.append_assoc, hfound, Shape.statement, Clause.parse?_write h.clause hne]
  simp [reread, shape]

end Statement

end ViewWriter.Script
