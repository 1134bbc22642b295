import ViewWriter.Optimize
import ViewWriter.Proofs.Script.ImportShape

/-! Scripts without unused imports. Unless a line that was passed over becomes an import statement
when the statements after it change, exactly the unused bindings are gone. -/

namespace ViewWriter.Script

open ViewWriter.Text

/-- The names that stay: those in use outside the import statements, and the preserved ones. -/
def keptNames (preserve : List String) (code : String) : List String :=
  references (bodyOf (importPieces code)) ++ preserve

/-- The statement with the bindings in `used`, unless it had bindings and keeps none. -/
def Statement.restricted? (used : String → Bool) (s : Statement) : Option Statement :=
  let clause := s.clause.restrict used
  if clause.isEmpty && !s.clause.isEmpty then none else some { s with clause }

/-- The statement as if it had no braces. -/
def Statement.unbraced (s : Statement) : Statement :=
  { s with clause := { s.clause with braces := false } }

def restrictPiece (used : String → Bool) : Piece (Option Statement) →
    List (Piece (Option Statement))
  | .found (some s) raw =>
    if s.clause.locals.all used then [.found (some s) raw]
    else
      let kept := { s with clause := s.clause.restrict used }
      if kept.clause.isEmpty then [] else [.found (some kept.reread) kept.write.toList]
  | p => [p]

/-- No line that was passed over is an import statement in front of what is left of the pieces
after it. -/
def Settled (used : String → Bool) (ps : List (Piece (Option Statement))) : Prop :=
  ∀ before p after, ps = before ++ .plain p :: after →
    importAt? (p ++ restrictPieces used after) = none

/-- A piece as it was found, in front of other pieces. -/
def IsPiece (p : Piece (Option Statement)) (rest : List (Piece (Option Statement))) : Prop :=
  match p with
  | .plain cs => (∃ l, '\n' ∉ l ∧ cs = l ++ ['\n']) ∨ cs ≠ [] ∧ '\n' ∉ cs ∧ rest = []
  | .found v raw => ∃ s clause ending, Shape.IsValid s clause ∧ v = s.statement clause ∧
      raw = s.text ++ ending ∧ (ending = ['\n'] ∨ ending = [] ∧ rest = [])

/-- Pieces of a script, one after the other. -/
inductive ArePieces : List (Piece (Option Statement)) → Prop
  | nil : ArePieces []
  | cons {p : Piece (Option Statement)} {rest : List (Piece (Option Statement))}
      (hp : IsPiece p rest) (h : ArePieces rest) : ArePieces (p :: rest)

section Pieces

variable {α : Type} {find? : List Char → Option (Match α)} {cs raw rest : List Char} {value : α}

lemma pieces_found (h : find? (raw ++ rest) = some ⟨value, raw, rest⟩) (hne : raw ≠ []) :
    pieces find? (raw ++ rest) = .found value raw :: pieces find? rest := by
  have hpos := List.length_pos_iff.2 hne
  obtain ⟨c, cs, hcs⟩ := List.exists_cons_of_ne_nil (List.append_ne_nil_of_left_ne_nil hne rest)
  have hlt : rest.length < (c :: cs).length := by
    rw [← hcs, List.length_append]
    omega
  rw [hcs] at h ⊢
  rw [pieces, h]
  simp only [hlt, ↓reduceIte]

lemma pieces_plain (h : find? (raw ++ rest) = none) (hne : raw ≠ [])
    (hsplit : splitLine (raw ++ rest) = (raw, rest)) :
    pieces find? (raw ++ rest) = .plain raw :: pieces find? rest := by
  obtain ⟨c, cs, hcs⟩ := List.exists_cons_of_ne_nil (List.append_ne_nil_of_left_ne_nil hne rest)
  rw [hcs] at h hsplit ⊢
  rw [pieces, h]
  simp only [hsplit]

lemma splitLine_break {l : List Char} (h : '\n' ∉ l) (rest : List Char) :
    splitLine (l ++ '\n' :: rest) = (l ++ ['\n'], rest) := by
  induction l with
  | nil => rfl
  | cons c l ih =>
    have hc : c ≠ '\n' := fun e => h (e ▸ List.mem_cons_self)
    have hl := ih fun hm => h (List.mem_cons_of_mem _ hm)
    rw [List.cons_append, splitLine, hl]
    · rfl
    · exact hc

lemma splitLine_last {l : List Char} (h : '\n' ∉ l) : splitLine l = (l, []) := by
  induction l with
  | nil => rfl
  | cons c l ih =>
    have hc : c ≠ '\n' := fun e => h (e ▸ List.mem_cons_self)
    rw [splitLine, ih fun hm => h (List.mem_cons_of_mem _ hm)]
    exact hc

lemma splitLine_cases (cs : List Char) :
    (∃ l, '\n' ∉ l ∧ (splitLine cs).1 = l ++ ['\n']) ∨ '\n' ∉ cs ∧ splitLine cs = (cs, []) := by
  by_cases h : '\n' ∈ cs
  · obtain ⟨l, rest, rfl, hl⟩ := List.eq_append_cons_of_mem h
    exact .inl ⟨l, hl, by rw [splitLine_break hl]⟩
  · exact .inr ⟨h, splitLine_last h⟩

lemma Shape.text_ne_nil (s : Shape) : s.text ≠ [] := by simp [Shape.text]

lemma importAt?_faithful : IsFaithful importAt? := by
  intro cs m h
  obtain ⟨s, clause, ending, -, -, -, hraw, hcs⟩ := exists_shape h
  rw [hraw, hcs, List.append_assoc]

lemma importAt?_shorter {m : Match (Option Statement)} (h : importAt? cs = some m) :
    m.rest.length < cs.length := by
  obtain ⟨s, clause, ending, -, -, -, -, hcs⟩ := exists_shape h
  have hpos := List.length_pos_iff.2 s.text_ne_nil
  rw [hcs, List.length_append, List.length_append]
  omega

lemma arePieces_pieces (cs : List Char) : ArePieces (pieces importAt? cs) := by
  fun_induction pieces importAt? cs with
  | case1 => exact .nil
  | case2 c rest m hm _ ih =>
    refine .cons ?_ ih
    obtain ⟨s, clause, ending, hs, he, hvalue, hraw, -⟩ := exists_shape hm
    refine ⟨s, clause, ending, hs, hvalue, hraw, he.imp_right ?_⟩
    rintro ⟨rfl, hrest⟩
    exact ⟨rfl, by rw [hrest, pieces]⟩
  | case3 c rest m hm hlt _ => exact absurd (importAt?_shorter hm) hlt
  | case4 c rest hm ih =>
    refine .cons ?_ ih
    rcases splitLine_cases (c :: rest) with ⟨l, hl, hline⟩ | ⟨hno, hline⟩
    · exact .inl ⟨l, hl, hline⟩
    · rw [hline]
      exact .inr ⟨List.cons_ne_nil c rest, hno, by rw [pieces]⟩

lemma ArePieces.isPiece {before after : List (Piece (Option Statement))}
    {p : Piece (Option Statement)} (h : ArePieces (before ++ p :: after)) : IsPiece p after := by
  induction before with
  | nil =>
    obtain - | ⟨hp, -⟩ := h
    exact hp
  | cons b before ih =>
    obtain - | ⟨-, hrest⟩ := h
    exact ih hrest

end Pieces

section Restriction

variable {used : String → Bool} {ps : List (Piece (Option Statement))}

lemma restrictPieces_cons (p : Piece (Option Statement)) (ps : List (Piece (Option Statement))) :
    restrictPieces used (p :: ps) =
      concatPieces (restrictPiece used p) ++ restrictPieces used ps := by
  rcases p with cs | ⟨_ | s, raw⟩
  · simp [restrictPieces, restrictPiece, concatPieces, Piece.raw]
  · simp [restrictPieces, restrictPiece, concatPieces, Piece.raw]
  · simp only [restrictPieces, restrictPiece, restrictStatement]
    split_ifs <;> simp [concatPieces, Piece.raw]

lemma concatPieces_restrict (ps : List (Piece (Option Statement))) :
    concatPieces (ps.flatMap (restrictPiece used)) = restrictPieces used ps := by
  induction ps with
  | nil => rfl
  | cons p ps ih =>
    rw [restrictPieces_cons, ← ih, concatPieces, List.flatMap_cons, List.flatMap_append]
    rfl

lemma Settled.tail {p : Piece (Option Statement)} (h : Settled used (p :: ps)) : Settled used ps :=
  fun before q after hps => h (p :: before) q after (by rw [hps, List.cons_append])

lemma importAt?_raw {v : Option Statement} {raw : List Char} (hp : IsPiece (.found v raw) ps) :
    importAt? (raw ++ restrictPieces used ps) = some ⟨v, raw, restrictPieces used ps⟩ := by
  obtain ⟨s, clause, ending, hs, rfl, rfl, hend⟩ := hp
  rw [List.append_assoc]
  exact importAt?_text hs (hend.imp_right fun h => ⟨h.1, by rw [h.2, restrictPieces]⟩)

lemma IsPiece.raw_ne_nil {v : Option Statement} {raw : List Char} (hp : IsPiece (.found v raw) ps) :
    raw ≠ [] := by
  obtain ⟨s, clause, ending, -, -, rfl, -⟩ := hp
  exact List.append_ne_nil_of_left_ne_nil s.text_ne_nil ending

lemma IsPiece.isRead {s : Statement} {raw : List Char} (hp : IsPiece (.found (some s) raw) ps) :
    s.IsRead := by
  obtain ⟨shape, clause, ending, hs, hst, -, -⟩ := hp
  exact Statement.isRead_of_shape hs hst.symm

lemma importAt?_restrictStatement {s : Statement} {raw : List Char}
    (hp : IsPiece (.found (some s) raw) ps) (hne : restrictStatement used s raw ≠ []) :
    ∃ s', restrictPiece used (.found (some s) raw) =
        [.found (some s') (restrictStatement used s raw)] ∧
      importAt? (restrictStatement used s raw ++ restrictPieces used ps) =
        some ⟨some s', restrictStatement used s raw, restrictPieces used ps⟩ := by
  simp only [restrictStatement, restrictPiece] at hne ⊢
  split_ifs at hne ⊢ with hall hempty
  · exact ⟨s, rfl, importAt?_raw hp⟩
  · exact absurd rfl hne
  · exact ⟨_, rfl,
      Statement.importAt?_write (hp.isRead.restrict used) (by simpa using hempty) _⟩

/-- What is left of the pieces is what is found in what is left of the script. -/
lemma pieces_restrictPieces (hp : ArePieces ps) (h : Settled used ps) :
    pieces importAt? (restrictPieces used ps) = ps.flatMap (restrictPiece used) := by
  induction hp with
  | nil => simp [restrictPieces, pieces]
  | @cons p rest hp _ ih =>
    have hrest := ih h.tail
    rw [List.flatMap_cons, ← hrest]
    cases p with
    | plain cs =>
      have hnone : importAt? (cs ++ restrictPieces used rest) = none := h [] cs rest rfl
      have hline : cs ≠ [] ∧ splitLine (cs ++ restrictPieces used rest) =
          (cs, restrictPieces used rest) := by
        rcases hp with ⟨l, hl, rfl⟩ | ⟨hne, hno, rfl⟩
        · exact ⟨by simp, by simpa using splitLine_break hl (restrictPieces used rest)⟩
        · exact ⟨hne, by simpa [restrictPieces] using splitLine_last hno⟩
      exact pieces_plain hnone hline.1 hline.2
    | found v raw =>
      cases v with
      | none => exact pieces_found (importAt?_raw hp) hp.raw_ne_nil
      | some s =>
        by_cases hne : restrictStatement used s raw = []
        · have hgone : restrictPiece used (.found (some s) raw) = [] := by
            simp only [restrictStatement, restrictPiece] at hne ⊢
            split_ifs at hne ⊢
            · exact absurd hne hp.raw_ne_nil
            · rfl
            · exact absurd hne (Statement.write_ne_nil _)
          rw [restrictPieces, hne, hgone]
          rfl
        · obtain ⟨s', hs', hfound⟩ := importAt?_restrictStatement hp hne
          rw [hs', restrictPieces]
          exact pieces_found hfound hne

/-- A line that was passed over is no import statement in front of anything if it does not even
begin with the word. -/
lemma settled_of_wordless (hp : ArePieces ps)
    (h : ∀ p, .plain p ∈ ps → stripPrefix? "import".toList (p.dropWhile isMargin) = none) :
    Settled used ps := by
  rintro before p after rfl
  have hword := h p (List.mem_append_right before List.mem_cons_self)
  have hpiece : IsPiece (.plain p) after := hp.isPiece
  have hnone : stripPrefix? "import".toList ((p ++ restrictPieces used after).dropWhile isMargin) =
      none := by
    rcases hpiece with ⟨l, hl, rfl⟩ | ⟨-, -, rfl⟩
    · rw [dropWhile_append_stop rfl, stripPrefix?_append_break (by decide),
        Option.map_eq_none_iff] at hword
      rw [List.append_assoc, List.singleton_append, dropWhile_append_stop rfl,
        stripPrefix?_append_break (by decide), hword]
      rfl
    · rwa [restrictPieces, List.append_nil]
  simp only [importAt?, hnone, Option.bind_eq_bind, Option.bind_none]

end Restriction

def Piece.statement? : Piece (Option Statement) → Option Statement
  | .found (some s) _ => some s
  | _ => none

section Statements

variable {used : String → Bool}

lemma filter_of_all {o : Option String} (h : o.toList.all used = true) : o.filter used = o := by
  cases o with
  | none => rfl
  | some a => exact Option.filter_some_pos (by simpa using h)

lemma restrict_of_all {c : Clause} (h : c.locals.all used = true) : c.restrict used = c := by
  simp only [Clause.locals, List.all_append, Bool.and_eq_true, List.all_map] at h
  obtain ⟨⟨hdefault, hns⟩, hnamed⟩ := h
  have hfilter : (c.named.filter fun n => used n.bound) = c.named :=
    List.filter_eq_self.2 (List.all_eq_true.1 hnamed)
  rw [Clause.restrict, filter_of_all hdefault, filter_of_all hns, hfilter]

lemma isEmpty_of_not_all {c : Clause} (h : ¬ c.locals.all used = true) : c.isEmpty = false := by
  refine Bool.eq_false_iff.2 fun he => h ?_
  simp only [Clause.isEmpty, Bool.and_eq_true, Option.isNone_iff_eq_none, List.isEmpty_iff] at he
  simp [Clause.locals, he]

lemma unbraced_reread (s : Statement) : s.reread.unbraced = s.unbraced := rfl

lemma statements_restrictPiece (p : Piece (Option Statement)) :
    ((restrictPiece used p).filterMap Piece.statement?).map Statement.unbraced =
      ((p.statement?.bind (Statement.restricted? used)).map Statement.unbraced).toList := by
  rcases p with cs | ⟨_ | s, raw⟩
  · rfl
  · rfl
  · simp only [restrictPiece, Piece.statement?, Option.bind_some, Statement.restricted?]
    by_cases hall : s.clause.locals.all used = true
    · simp [hall, restrict_of_all hall, Piece.statement?]
    · cases hkept : (s.clause.restrict used).isEmpty with
      | true => simp [hall, isEmpty_of_not_all hall]
      | false => simp [hall, Piece.statement?, unbraced_reread]

def revealing : String := "import A\nfrom \"x\nimport B from 'b'\n\"\n"

lemma imports_revealing :
    (Optimize.imports {} (.arr []) revealing).toOption = some "import A\nfrom \"x\n\"\n" := by
  decide +kernel

def halfUsed : String := "import \x7b A, B \x7d from 'm'\nA()\n"

lemma settled_halfUsed {used : String → Bool} : Settled used (importPieces halfUsed) := by
  refine settled_of_wordless (arePieces_pieces _) fun p hp => ?_
  have hplain : ((importPieces halfUsed).all fun
      | .plain p => (stripPrefix? "import".toList (p.dropWhile isMargin)).isNone
      | .found _ _ => true) = true := by
    decide +kernel
  exact Option.isNone_iff_eq_none.1 (List.all_eq_true.1 hplain _ hp)

end Statements

end ViewWriter.Script
