import ViewWriter.Proofs.Text.Pieces
import ViewWriter.Stylesheet.Basic

/-! How a block of declarations is cut at semicolons, and texts that stay free of braces, at signs
and comments when white space is added or taken away. -/

namespace ViewWriter.Stylesheet

open ViewWriter.Text

section Blocks

/-- The open quote and the depth of parentheses after a character; a semicolon outside both has
no next state. -/
def nextState (quote : Option Char) (depth : Int) (c : Char) : Option (Option Char × Int) :=
  match quote with
  | some q => some (if c == q then none else some q, depth)
  | none =>
    if c == '\'' || c == '"' then some (some c, depth)
    else if c == '(' then some (none, depth + 1)
    else if c == ')' then some (none, depth - 1)
    else if c == ';' && depth == 0 then none
    else some (none, depth)

/-- Whether a text leaves no quote and no parenthesis open and has no semicolon outside them. -/
def closes (quote : Option Char) (depth : Int) : List Char → Bool
  | [] => quote.isNone && depth == 0
  | c :: rest =>
    match nextState quote depth c with
    | none => false
    | some s => closes s.1 s.2 rest

def putFirst (c : Char) : List (List Char) → List (List Char)
  | [] => [[c]]
  | part :: more => (c :: part) :: more

lemma splitBlock_cons (quote : Option Char) (depth : Int) (c : Char) (rest : List Char) :
    splitBlock quote depth (c :: rest) =
      match nextState quote depth c with
      | none => (splitBlock none 0 rest).map ([] :: ·)
      | some s => (splitBlock s.1 s.2 rest).map (putFirst c) := by
  cases quote with
  | some q => rfl
  | none =>
    simp only [splitBlock, nextState]
    split_ifs with h₁ h₂ h₃ h₄
    · rfl
    · rfl
    · rfl
    · simp only [Bool.and_eq_true, beq_iff_eq] at h₄
      rw [h₄.2]
    · rfl

lemma splitBlock_append {quote : Option Char} {depth : Int} {part : List Char}
    (h : closes quote depth part) (rest : List Char) :
    splitBlock quote depth (part ++ ';' :: rest) = (splitBlock none 0 rest).map (part :: ·) := by
  induction part generalizing quote depth with
  | nil =>
    simp only [closes, Bool.and_eq_true, Option.isNone_iff_eq_none, beq_iff_eq] at h
    obtain ⟨rfl, rfl⟩ := h
    rfl
  | cons c cs ih =>
    rw [closes] at h
    rw [List.cons_append, splitBlock_cons]
    cases hs : nextState quote depth c with
    | none => simp [hs] at h
    | some s =>
      rw [hs] at h
      simp [ih h, putFirst, Function.comp_def]

lemma closes_of_splitBlock {quote : Option Char} {depth : Int} {cs : List Char}
    {parts : List (List Char)} (h : splitBlock quote depth cs = some parts) :
    ∃ part more, parts = part :: more ∧ closes quote depth part ∧ part <+: cs ∧
      ∀ p ∈ more, closes none 0 p ∧ p <:+: cs := by
  induction cs generalizing quote depth parts with
  | nil =>
    simp only [splitBlock] at h
    split_ifs at h with hc
    obtain rfl := Option.some.inj h
    refine ⟨[], [], rfl, ?_, List.prefix_rfl, by simp⟩
    cases quote <;> simp_all [closes]
  | cons c rest ih =>
    rw [splitBlock_cons] at h
    cases hs : nextState quote depth c with
    | none =>
      rw [hs] at h
      obtain ⟨ps, hps, rfl⟩ := Option.map_eq_some_iff.1 h
      obtain ⟨part, more, rfl, hp, hpre, hm⟩ := ih hps
      refine ⟨[], part :: more, rfl, ?_, List.nil_prefix, ?_⟩
      · cases quote with
        | some q => simp [nextState] at hs
        | none =>
          simp only [nextState] at hs
          split_ifs at hs with _ _ _ h₄
          simp only [Bool.and_eq_true, beq_iff_eq] at h₄
          simp [closes, h₄.2]
      · intro p hmem
        rcases List.mem_cons.1 hmem with rfl | hmem
        · exact ⟨hp, List.infix_cons hpre.isInfix⟩
        · exact ⟨(hm p hmem).1, List.infix_cons (hm p hmem).2⟩
    | some s =>
      rw [hs] at h
      obtain ⟨ps, hps, rfl⟩ := Option.map_eq_some_iff.1 h
      obtain ⟨part, more, rfl, hp, hpre, hm⟩ := ih hps
      refine ⟨c :: part, more, rfl, ?_, ?_, fun p hmem => ?_⟩
      · rw [closes, hs]
        exact hp
      · exact List.cons_prefix_cons.2 ⟨rfl, hpre⟩
      · exact ⟨(hm p hmem).1, List.infix_cons (hm p hmem).2⟩

lemma nextState_blank {quote : Option Char} (hq : ∀ q ∈ quote, isBlank q = false) (depth : Int)
    {c : Char} (hc : isBlank c = true) : nextState quote depth c = some (quote, depth) := by
  have hne : ∀ a, isBlank a = false → (c == a) = false := by
    intro a ha
    refine beq_eq_false_iff_ne.2 ?_
    rintro rfl
    simp [ha] at hc
  cases quote with
  | some q => simp [nextState, hne q (hq q rfl)]
  | none =>
    simp [nextState, hne '\'' (by decide), hne '"' (by decide), hne '(' (by decide),
      hne ')' (by decide), hne ';' (by decide)]

lemma nextState_quote {quote : Option Char} (hq : ∀ q ∈ quote, isBlank q = false) {depth : Int}
    {c : Char} {s : Option Char × Int} (h : nextState quote depth c = some s) :
    ∀ q ∈ s.1, isBlank q = false := by
  cases quote with
  | some q =>
    obtain rfl := Option.some.inj h
    intro a ha
    split_ifs at ha
    · simp at ha
    · exact hq a ha
  | none =>
    simp only [nextState] at h
    split_ifs at h with h₁
    · obtain rfl := Option.some.inj h
      intro a ha
      obtain rfl := Option.some.inj ha
      simp only [Bool.or_eq_true, beq_iff_eq] at h₁
      rcases h₁ with rfl | rfl <;> decide
    all_goals
      obtain rfl := Option.some.inj h
      simp

lemma closes_filter {quote : Option Char} (hq : ∀ q ∈ quote, isBlank q = false) (depth : Int)
    (cs : List Char) : closes quote depth (cs.filter (!isBlank ·)) = closes quote depth cs := by
  induction cs generalizing quote depth with
  | nil => rfl
  | cons c rest ih =>
    by_cases hc : isBlank c
    · rw [List.filter_cons_of_neg (by simp [hc]), ih hq, closes.eq_2, nextState_blank hq depth hc]
    · rw [List.filter_cons_of_pos (by simp [hc]), closes, closes]
      cases hs : nextState quote depth c with
      | none => rfl
      | some s => exact ih (nextState_quote hq hs) s.2

lemma closes_eq_of_filter {cs ds : List Char}
    (h : cs.filter (!isBlank ·) = ds.filter (!isBlank ·)) : closes none 0 cs = closes none 0 ds := by
  rw [← closes_filter (by simp) 0 cs, h, closes_filter (by simp)]

end Blocks

section Harmless

def IsFlat (cs : List Char) : Prop := '@' ∉ cs ∧ ¬ ['/', '*'] <:+: cs

def Harmless (cs : List Char) : Prop := IsFlat cs ∧ ∀ c ∈ cs, isBrace c = false

lemma comment_infix_append_cons {c : Char} (h₁ : c ≠ '/') (h₂ : c ≠ '*') (cs ds : List Char) :
    ['/', '*'] <:+: cs ++ c :: ds ↔ ['/', '*'] <:+: cs ∨ ['/', '*'] <:+: ds := by
  induction cs with
  | nil => simp [List.infix_cons_iff, List.cons_prefix_cons, Ne.symm h₁]
  | cons a rest ih =>
    have hprefix : ['/', '*'] <+: a :: (rest ++ c :: ds) ↔ ['/', '*'] <+: a :: rest := by
      cases rest with
      | nil => simp [List.cons_prefix_cons, Ne.symm h₂]
      | cons b rest => simp [List.cons_prefix_cons]
    rw [List.cons_append, List.infix_cons_iff, List.infix_cons_iff, ih, hprefix, or_assoc]

variable {cs ds : List Char}

lemma IsFlat.append_cons (c : Char) (hc : c ∉ ['/', '*', '@']) (hcs : IsFlat cs)
    (hds : IsFlat ds) : IsFlat (cs ++ c :: ds) := by
  simp only [List.mem_cons, List.not_mem_nil, or_false, not_or] at hc
  refine ⟨?_, fun h => ?_⟩
  · simp [hcs.1, hds.1, Ne.symm hc.2.2]
  · rcases (comment_infix_append_cons hc.1 hc.2.1 cs ds).1 h with h | h
    · exact hcs.2 h
    · exact hds.2 h

lemma IsFlat.of_isInfix (h : IsFlat cs) (hi : ds <:+: cs) : IsFlat ds :=
  ⟨fun hd => h.1 (hi.mem hd), fun hd => h.2 (hd.trans hi)⟩

lemma isFlat_nil : IsFlat [] := by simp [IsFlat]

lemma isFlat_blank_append (h : ∀ c ∈ ds, isBlank c = true) (hcs : IsFlat cs) :
    IsFlat (ds ++ cs) := by
  induction ds with
  | nil => exact hcs
  | cons d rest ih =>
    have hne : ∀ a, isBlank a = false → d ≠ a := by
      rintro a ha rfl
      simp [h d List.mem_cons_self] at ha
    have hrest := ih fun c hc => h c (List.mem_cons_of_mem _ hc)
    refine isFlat_nil.append_cons d ?_ hrest
    simp [hne '/' (by decide), hne '*' (by decide), hne '@' (by decide)]

lemma Harmless.of_isInfix (h : Harmless cs) (hi : ds <:+: cs) : Harmless ds :=
  ⟨h.1.of_isInfix hi, fun c hc => h.2 c (hi.mem hc)⟩

lemma Harmless.append_cons (c : Char) (hc : c ∉ ['/', '*', '@']) (hb : isBrace c = false)
    (hcs : Harmless cs) (hds : Harmless ds) : Harmless (cs ++ c :: ds) := by
  refine ⟨hcs.1.append_cons c hc hds.1, fun a ha => ?_⟩
  rcases List.mem_append.1 ha with ha | ha
  · exact hcs.2 a ha
  · rcases List.mem_cons.1 ha with rfl | ha
    · exact hb
    · exact hds.2 a ha

lemma harmless_nil : Harmless [] := ⟨isFlat_nil, by simp⟩

lemma Harmless.space (hcs : Harmless cs) (hds : Harmless ds) : Harmless (cs ++ ' ' :: ds) :=
  hcs.append_cons ' ' (by decide) (by decide) hds

lemma Harmless.joinWords {words : List (List Char)} (h : ∀ word ∈ words, Harmless word) :
    Harmless (joinWith [' '] words) := by
  induction words with
  | nil => exact harmless_nil
  | cons word rest ih =>
    have hrest := ih fun w hw => h w (List.mem_cons_of_mem _ hw)
    cases rest with
    | nil => simpa [joinWith] using h word List.mem_cons_self
    | cons next rest => simpa [joinWith] using (h word List.mem_cons_self).space hrest

lemma Harmless.squeezed (h : Harmless cs) : Harmless (squeezed cs) :=
  .joinWords fun _ hw => h.of_isInfix (mem_runsOutside hw).2.2

lemma Harmless.joinPieces {pieces : List (List Char)} (h : ∀ piece ∈ pieces, Harmless piece) :
    Harmless (joinWith [',', ' '] pieces) := by
  induction pieces with
  | nil => exact harmless_nil
  | cons piece rest ih =>
    have hrest := ih fun p hp => h p (List.mem_cons_of_mem _ hp)
    cases rest with
    | nil => simpa [joinWith] using h piece List.mem_cons_self
    | cons next rest =>
      have hspace := Harmless.space harmless_nil hrest
      simpa [joinWith] using
        (h piece List.mem_cons_self).append_cons ',' (by decide) (by decide) hspace

end Harmless

end ViewWriter.Stylesheet
