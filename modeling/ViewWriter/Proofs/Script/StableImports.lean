import ViewWriter.Proofs.Script.UnusedImports
import ViewWriter.Proofs.Script.UsedNames

/-! Taking out unused imports twice. What the first run leaves uses the same names and imports none
but those, so that the second run takes nothing out, unless it reads statements that were none. -/

namespace ViewWriter.Script

open ViewWriter.Text

/-- A name outside the import statements, piece by piece. -/
def IsMentioned (ps : List (Piece (Option Statement))) (name : String) : Prop :=
  ∃ p ∈ ps, p.statement? = none ∧ name ∈ references p.raw

section Mentions

variable {used : String → Bool} {ps : List (Piece (Option Statement))} {name : String}

lemma IsPiece.closed {p : Piece (Option Statement)} (h : IsPiece p ps) :
    (∃ l, p.raw = l ++ ['\n']) ∨ ps = [] := by
  cases p with
  | plain cs =>
    rcases h with ⟨l, -, rfl⟩ | ⟨-, -, hrest⟩
    · exact .inl ⟨l, rfl⟩
    · exact .inr hrest
  | found v raw =>
    obtain ⟨s, clause, ending, -, -, rfl, rfl | ⟨-, hrest⟩⟩ := h
    · exact .inl ⟨s.text, rfl⟩
    · exact .inr hrest

lemma bodyOf_cons (p : Piece (Option Statement)) (ps : List (Piece (Option Statement))) :
    bodyOf (p :: ps) = (if p.statement?.isSome then ['\n'] else p.raw) ++ bodyOf ps := by
  rcases p with cs | ⟨_ | s, raw⟩ <;> rfl

lemma mem_references_bodyOf (hps : ArePieces ps) :
    name ∈ references (bodyOf ps) ↔ IsMentioned ps name := by
  induction hps with
  | nil => simp [bodyOf, references_nil, IsMentioned]
  | @cons p ps hp _ ih =>
    have hcons : IsMentioned (p :: ps) name ↔
        p.statement? = none ∧ name ∈ references p.raw ∨ IsMentioned ps name := by
      simp only [IsMentioned, List.mem_cons, exists_eq_or_imp]
    rw [hcons, ← ih, bodyOf_cons]
    cases hs : p.statement? with
    | some s =>
      have hskip := references_skip (by decide) (by decide) (bodyOf ps) (c := '\n')
      simp [hskip]
    | none =>
      rcases hp.closed with ⟨l, hl⟩ | rfl
      · simp only [hl, Option.isSome_none, Bool.false_eq_true, ↓reduceIte, List.append_assoc,
          List.singleton_append, mem_references_break, references_line, true_and]
      · simp [bodyOf, references_nil]

lemma restrictPiece_of_none {p : Piece (Option Statement)} (h : p.statement? = none) :
    restrictPiece used p = [p] := by
  rcases p with cs | ⟨_ | s, raw⟩
  · rfl
  · rfl
  · cases h

lemma restrictPiece_of_all {p : Piece (Option Statement)}
    (h : ∀ s, p.statement? = some s → s.clause.locals.all used) : restrictPiece used p = [p] := by
  rcases p with cs | ⟨_ | s, raw⟩
  · rfl
  · rfl
  · rw [restrictPiece, if_pos (h s rfl)]

lemma restrictPiece_cases {p q : Piece (Option Statement)} (hq : q ∈ restrictPiece used p) :
    (q = p ∨ q.statement?.isSome) ∧ ∀ s, q.statement? = some s → s.clause.locals.all used := by
  rcases p with cs | ⟨_ | s, raw⟩
  · obtain rfl := List.mem_singleton.1 hq
    exact ⟨.inl rfl, fun s hs => by cases hs⟩
  · obtain rfl := List.mem_singleton.1 hq
    exact ⟨.inl rfl, fun s hs => by cases hs⟩
  · rw [restrictPiece] at hq
    dsimp only at hq
    split_ifs at hq with hall hempty
    · obtain rfl := List.mem_singleton.1 hq
      refine ⟨.inl rfl, fun t ht => ?_⟩
      obtain rfl := Option.some.inj ht
      exact hall
    · cases hq
    · obtain rfl := List.mem_singleton.1 hq
      refine ⟨.inr rfl, fun t ht => ?_⟩
      obtain rfl := Option.some.inj ht
      exact List.all_eq_true.2 (locals_restrict s.clause)

/-- No mention of a name is taken out, and none is added. -/
lemma isMentioned_restrict :
    IsMentioned (ps.flatMap (restrictPiece used)) name ↔ IsMentioned ps name := by
  constructor
  · rintro ⟨q, hq, hnone, hname⟩
    obtain ⟨p, hp, hq⟩ := List.mem_flatMap.1 hq
    obtain ⟨rfl | hsome, -⟩ := restrictPiece_cases hq
    · exact ⟨q, hp, hnone, hname⟩
    · rw [hnone] at hsome
      cases hsome
  · rintro ⟨p, hp, hnone, hname⟩
    refine ⟨p, List.mem_flatMap.2 ⟨p, hp, ?_⟩, hnone, hname⟩
    rw [restrictPiece_of_none hnone]
    exact List.mem_singleton_self p

lemma restrictPieces_of_all
    (h : ∀ p ∈ ps, ∀ s, p.statement? = some s → s.clause.locals.all used) :
    restrictPieces used ps = concatPieces ps := by
  rw [← concatPieces_restrict, List.flatMap_congr fun p hp => restrictPiece_of_all (h p hp),
    List.flatMap_singleton']

end Mentions

section Runs

variable {preserve : List String} {code : String}

lemma mem_keptNames_pieces {name : String} :
    name ∈ keptNames preserve code ↔ name ∈ preserve ∨ IsMentioned (importPieces code) name := by
  have hps : ArePieces (importPieces code) := arePieces_pieces _
  rw [keptNames, List.mem_append, mem_references_bodyOf hps, or_comm]

lemma importPieces_withoutUnused
    (h : Settled (keptNames preserve code).contains (importPieces code)) :
    importPieces (withoutUnused preserve code) =
      (importPieces code).flatMap (restrictPiece (keptNames preserve code).contains) := by
  rw [importPieces, withoutUnused, String.toList_ofList]
  exact pieces_restrictPieces (arePieces_pieces _) h

/-- The names that stay are the same in the second run. -/
lemma contains_keptNames_withoutUnused
    (h : Settled (keptNames preserve code).contains (importPieces code)) :
    (keptNames preserve (withoutUnused preserve code)).contains =
      (keptNames preserve code).contains := by
  funext name
  rw [Bool.eq_iff_iff, List.contains_iff_mem, List.contains_iff_mem, mem_keptNames_pieces,
    mem_keptNames_pieces, importPieces_withoutUnused h, isMentioned_restrict]

lemma withoutUnused_twice
    (h : Settled (keptNames preserve code).contains (importPieces code)) :
    withoutUnused preserve (withoutUnused preserve code) = withoutUnused preserve code := by
  have hused : ∀ p ∈ importPieces (withoutUnused preserve code), ∀ s, p.statement? = some s →
      s.clause.locals.all (keptNames preserve code).contains := by
    rw [importPieces_withoutUnused h]
    intro q hq
    obtain ⟨p, -, hq⟩ := List.mem_flatMap.1 hq
    exact (restrictPiece_cases hq).2
  have hsecond : withoutUnused preserve (withoutUnused preserve code) = String.ofList
      (restrictPieces (keptNames preserve (withoutUnused preserve code)).contains
        (importPieces (withoutUnused preserve code))) := rfl
  rw [hsecond, contains_keptNames_withoutUnused h, restrictPieces_of_all hused, importPieces,
    concatPieces_pieces importAt?_faithful, String.ofList_toList]

variable {config : Config} {kept : Json}

/-- A second run takes nothing out, unless the first one makes an import statement of a line that
was passed over. -/
theorem unused_imports_settle
    (hnames : Optimize.names (if kept.isNull then config.preserveImports else kept) = .ok preserve) :
    ∃ out, Optimize.imports config kept code = .ok out ∧
      (Settled (keptNames preserve code).contains (importPieces code) →
        Optimize.imports config kept out = .ok out) := by
  have hrun : ∀ code, Optimize.imports config kept code = .ok (withoutUnused preserve code) := by
    intro code
    simp only [Optimize.imports, hnames]
    rfl
  refine ⟨_, hrun code, fun hsettled => ?_⟩
  rw [hrun, withoutUnused_twice hsettled]

theorem unused_imports_settle_halfUsed : Optimize.names (.arr []) = .ok [] ∧
    ∃ out, Optimize.imports {} (.arr []) halfUsed = .ok out ∧
      Optimize.imports {} (.arr []) out = .ok out := by
  refine ⟨rfl, ?_⟩
  obtain ⟨out, hout, hagain⟩ := @unused_imports_settle [] halfUsed {} (.arr []) rfl
  exact ⟨out, hout, hagain settled_halfUsed⟩

/-- The statement that the first run brings about is taken out by the second. -/
theorem unused_imports_run_on : ∃ out, Optimize.imports {} (.arr []) revealing = .ok out ∧
    Optimize.imports {} (.arr []) out ≠ .ok out := by
  have hfirst := imports_revealing
  cases h : Optimize.imports {} (.arr []) revealing with
  | error e =>
    rw [h] at hfirst
    cases hfirst
  | ok out =>
    rw [h] at hfirst
    obtain rfl := Option.some.inj hfirst
    refine ⟨_, rfl, fun hsame => ?_⟩
    have hsecond : (Optimize.imports {} (.arr []) "import A\nfrom \"x\n\"\n").toOption = some "" := by
      decide +kernel
    rw [hsame] at hsecond
    exact absurd (Option.some.inj hsecond) (by decide)

end Runs

end ViewWriter.Script
