import Mathlib.Data.List.Pairwise
import ViewWriter.Proofs.Script.UnusedImports
import ViewWriter.Script.Loading

/-! Scripts as lines with their breaks. Where each line is decided by itself, the pieces of a script
are its lines, and taking out stretches is leaving out lines. -/

namespace ViewWriter.Script

open ViewWriter.Text

/-- The lines of a text, each with its break. -/
def codeLines : List Char → List (List Char)
  | [] => []
  | c :: cs =>
    if c = '\n' then [c] :: codeLines cs
    else match codeLines cs with
      | [] => [[c]]
      | l :: ls => (c :: l) :: ls

/-- Only the last line may lack its break. -/
inductive AreLines : List (List Char) → Prop
  | nil : AreLines []
  | last {l : List Char} (hne : l ≠ []) (h : '\n' ∉ l) : AreLines [l]
  | cons {l : List Char} {ls : List (List Char)} (h : '\n' ∉ l) (hls : AreLines ls) :
      AreLines ((l ++ ['\n']) :: ls)

section Lines

variable {l : List Char} {ls ms : List (List Char)} {cs : List Char}

lemma flatten_codeLines (cs : List Char) : (codeLines cs).flatten = cs := by
  induction cs with
  | nil => rfl
  | cons c cs ih =>
    rw [codeLines]
    split_ifs with hc
    · rw [List.flatten_cons, ih, List.singleton_append]
    · cases h : codeLines cs with
      | nil =>
        rw [h] at ih
        simpa using ih
      | cons l ls =>
        rw [h] at ih
        simpa using ih

lemma areLines_codeLines (cs : List Char) : AreLines (codeLines cs) := by
  induction cs with
  | nil => exact .nil
  | cons c cs ih =>
    rw [codeLines]
    split_ifs with hc
    · rw [hc]
      exact .cons (l := []) (by simp) ih
    · generalize codeLines cs = ls at ih
      cases ih with
      | nil => exact .last (by simp) (by simpa using Ne.symm hc)
      | @last l hne h => exact .last (by simp) (by simpa [Ne.symm hc] using h)
      | @cons l ls h hls => exact .cons (l := c :: l) (by simpa [Ne.symm hc] using h) hls

lemma codeLines_break (h : '\n' ∉ l) (cs : List Char) :
    codeLines (l ++ '\n' :: cs) = (l ++ ['\n']) :: codeLines cs := by
  induction l with
  | nil => simp [codeLines]
  | cons c l ih =>
    have hc : c ≠ '\n' := fun e => h (e ▸ List.mem_cons_self)
    rw [List.cons_append, codeLines, if_neg hc, ih fun hm => h (List.mem_cons_of_mem c hm)]
    rfl

lemma codeLines_append_break (cs ds : List Char) :
    codeLines (cs ++ '\n' :: ds) = codeLines (cs ++ ['\n']) ++ codeLines ds := by
  induction cs with
  | nil => rfl
  | cons c cs ih =>
    rw [List.cons_append, List.cons_append, codeLines, codeLines, ih]
    split_ifs
    · rfl
    · cases h : codeLines (cs ++ ['\n']) with
      | nil =>
        have hflat := flatten_codeLines (cs ++ ['\n'])
        simp [h] at hflat
      | cons l ls => rfl

lemma codeLines_last (hne : l ≠ []) (h : '\n' ∉ l) : codeLines l = [l] := by
  induction l with
  | nil => contradiction
  | cons c l ih =>
    have hc : c ≠ '\n' := fun e => h (e ▸ List.mem_cons_self)
    rw [codeLines, if_neg hc]
    cases l with
    | nil => rfl
    | cons d l => rw [ih (by simp) fun hm => h (List.mem_cons_of_mem c hm)]

lemma AreLines.codeLines_flatten (h : AreLines ls) : codeLines ls.flatten = ls := by
  induction h with
  | nil => rfl
  | last hne h => simpa using codeLines_last hne h
  | @cons l ls h _ ih =>
    rw [List.flatten_cons, List.append_assoc, List.singleton_append, codeLines_break h, ih]

lemma AreLines.tail (h : AreLines (l :: ls)) : AreLines ls := by
  cases h with
  | last => exact .nil
  | cons _ hls => exact hls

lemma AreLines.right (h : AreLines (ls ++ ms)) : AreLines ms := by
  induction ls with
  | nil => exact h
  | cons l ls ih => exact ih h.tail

lemma AreLines.ne_nil (h : AreLines ls) (hl : l ∈ ls) : l ≠ [] := by
  induction h with
  | nil => cases hl
  | last hne _ => exact List.mem_singleton.1 hl ▸ hne
  | cons _ _ ih =>
    rcases List.mem_cons.1 hl with rfl | hl
    · simp
    · exact ih hl

/-- Lines all of which have a break. -/
def AllBroken (ls : List (List Char)) : Prop := ∀ l ∈ ls, ∃ body, '\n' ∉ body ∧ l = body ++ ['\n']

lemma AllBroken.append_areLines (h : AllBroken ls) (hms : AreLines ms) : AreLines (ls ++ ms) := by
  induction ls with
  | nil => exact hms
  | cons l ls ih =>
    obtain ⟨body, hbody, rfl⟩ := h l List.mem_cons_self
    exact .cons hbody (ih fun m hm => h m (List.mem_cons_of_mem _ hm))

lemma AreLines.allBroken (h : AreLines (ls ++ ms)) (hms : ms ≠ []) : AllBroken ls := by
  induction ls with
  | nil => intro l hl; cases hl
  | cons l ls ih =>
    have hbody : ∃ body, '\n' ∉ body ∧ l = body ++ ['\n'] := by
      rw [List.cons_append] at h
      generalize hrest : ls ++ ms = rest at h
      cases h with
      | last => simp [hms] at hrest
      | @cons body _ hbody _ => exact ⟨body, hbody, rfl⟩
    intro m hm
    rcases List.mem_cons.1 hm with rfl | hm
    · exact hbody
    · exact ih h.tail m hm

lemma AreLines.filter (h : AreLines ls) (p : List Char → Bool) : AreLines (ls.filter p) := by
  induction h with
  | nil => exact .nil
  | @last l hne h =>
    rw [List.filter_cons]
    split
    · exact .last hne h
    · exact .nil
  | @cons l ls h _ ih =>
    rw [List.filter_cons]
    split
    · exact .cons h ih
    · exact ih

end Lines

/-! Matchers that decide line by line. -/

section Places

variable {α β : Type} {find? : List Char → Option (Match α)} {line? : List Char → Option α}
  {ls : List (List Char)} {cs : List Char}

/-- A line in front of a text: it has a break, or nothing follows. -/
def IsLine (l rest : List Char) : Prop :=
  (∃ body, '\n' ∉ body ∧ l = body ++ ['\n']) ∨ l ≠ [] ∧ '\n' ∉ l ∧ rest = []

lemma AreLines.isLine {l : List Char} (h : AreLines (l :: ls)) : IsLine l ls.flatten := by
  cases h with
  | last hne h => exact .inr ⟨hne, h, rfl⟩
  | @cons body _ h _ => exact .inl ⟨body, h, rfl⟩

lemma IsLine.ne_nil {l rest : List Char} (h : IsLine l rest) : l ≠ [] := by
  rcases h with ⟨body, -, rfl⟩ | ⟨hne, -, -⟩
  · simp
  · exact hne

lemma IsLine.splitLine {l rest : List Char} (h : IsLine l rest) :
    splitLine (l ++ rest) = (l, rest) := by
  rcases h with ⟨body, hbody, rfl⟩ | ⟨-, hl, rfl⟩
  · simpa using splitLine_break hbody rest
  · simpa using splitLine_last hl

/-- What a matcher finds at a line is told from the line alone. -/
def Decides (find? : List Char → Option (Match α)) (line? : List Char → Option α)
    (l : List Char) : Prop :=
  ∀ rest, IsLine l rest → find? (l ++ rest) = (line? l).map fun v => ⟨v, l, rest⟩

/-- The lines with their places in a text, of which `start` characters precede them. -/
def places (start : ℕ) : List (List Char) → List (List Char × ℕ × ℕ)
  | [] => []
  | l :: ls => (l, start, start + l.length) :: places (start + l.length) ls

lemma places_append (start : ℕ) (ls ms : List (List Char)) :
    places start (ls ++ ms) = places start ls ++ places (start + ls.flatten.length) ms := by
  induction ls generalizing start with
  | nil => rfl
  | cons l ls ih =>
    rw [List.cons_append, places, places, ih, List.flatten_cons, List.length_append, Nat.add_assoc]
    rfl

def linePiece (line? : List Char → Option α) (l : List Char) : Piece α :=
  match line? l with
  | some v => .found v l
  | none => .plain l

lemma pieces_lines (h : AreLines ls) (hfind : ∀ l ∈ ls, Decides find? line? l) :
    pieces find? ls.flatten = ls.map (linePiece line?) := by
  induction ls with
  | nil => simp [pieces]
  | cons l ls ih =>
    have hl := h.isLine
    have hline := hfind l List.mem_cons_self ls.flatten hl
    have hrest := ih h.tail fun m hm => hfind m (List.mem_cons_of_mem l hm)
    rw [List.flatten_cons, List.map_cons, ← hrest, linePiece]
    cases hv : line? l with
    | none =>
      rw [hv] at hline
      exact pieces_plain hline hl.ne_nil hl.splitLine
    | some v =>
      rw [hv] at hline
      exact pieces_found hline hl.ne_nil

lemma found_lines (start : ℕ) (ls : List (List Char)) :
    found start (ls.map (linePiece line?)) =
      (places start ls).filterMap fun p => (line? p.1).map fun v => (v, p.2) := by
  induction ls generalizing start with
  | nil => rfl
  | cons l ls ih =>
    rw [List.map_cons, places, List.filterMap_cons, linePiece]
    cases line? l with
    | none => exact ih _
    | some v => exact congrArg _ (ih _)

lemma map_places (start : ℕ) (ls : List (List Char)) : (places start ls).map (·.1) = ls := by
  induction ls generalizing start with
  | nil => rfl
  | cons l ls ih => rw [places, List.map_cons, ih]

end Places

/-! Stretches that are lines. -/

section Spans

variable {chosen : List Char → Bool} {ls : List (List Char)} {l : List Char} {start : ℕ}

/-- The stretches of some lines. -/
def lineSpans (chosen : List Char → Bool) (start : ℕ) (ls : List (List Char)) : List Span :=
  ((places start ls).filter fun p => chosen p.1).map fun p =>
    ⟨p.2.1, p.2.2, p.1.takeWhile isMargin⟩

lemma lineSpans_cons (start : ℕ) (l : List Char) (ls : List (List Char)) :
    lineSpans chosen start (l :: ls) =
      (if chosen l then [⟨start, start + l.length, l.takeWhile isMargin⟩] else []) ++
        lineSpans chosen (start + l.length) ls := by
  rw [lineSpans, places, List.filter_cons]
  split_ifs <;> rfl

lemma bounds_of_mem_lineSpans {s : Span} (h : s ∈ lineSpans chosen start ls) :
    start ≤ s.first ∧ s.first ≤ s.last := by
  induction ls generalizing start with
  | nil => cases h
  | cons l ls ih =>
    rw [lineSpans_cons, List.mem_append] at h
    rcases h with h | h
    · split_ifs at h
      · obtain rfl := List.mem_singleton.1 h
        exact ⟨le_rfl, Nat.le_add_right start l.length⟩
      · cases h
    · have := ih h
      exact ⟨by omega, this.2⟩

lemma pairwise_lineSpans (hne : ∀ l ∈ ls, l ≠ []) :
    (lineSpans chosen start ls).Pairwise fun a b => a.first < b.first := by
  induction ls generalizing start with
  | nil => exact .nil
  | cons l ls ih =>
    have hrest := @ih (start + l.length) fun m hm => hne m (List.mem_cons_of_mem l hm)
    have hpos := List.length_pos_iff.2 (hne l List.mem_cons_self)
    rw [lineSpans_cons, List.pairwise_append]
    refine ⟨?_, hrest, fun a ha b hb => ?_⟩
    · split_ifs <;> simp
    · have := (bounds_of_mem_lineSpans hb).1
      split_ifs at ha
      · obtain rfl := List.mem_singleton.1 ha
        dsimp only
        omega
      · cases ha

lemma lineSpans_perm {p q : List Char → Bool} (h : ∀ l ∈ ls, p l → ¬q l) :
    (lineSpans p start ls ++ lineSpans q start ls).Perm
      (lineSpans (fun l => p l || q l) start ls) := by
  induction ls generalizing start with
  | nil => exact .nil
  | cons l ls ih =>
    have hrest := @ih (start + l.length) fun m hm => h m (List.mem_cons_of_mem l hm)
    have hl := h l List.mem_cons_self
    rw [lineSpans_cons, lineSpans_cons, lineSpans_cons]
    cases hp : p l with
    | true =>
      have hq : q l = false := by simpa using hl hp
      simpa [hq] using hrest
    | false =>
      cases hq : q l with
      | true =>
        simp only [Bool.false_eq_true, if_false, List.nil_append, Bool.false_or, if_true]
        exact List.perm_middle.trans (hrest.cons _)
      | false => simpa using hrest

lemma pairwise_mergeSort (spans : List Span) :
    (spans.mergeSort fun a b => a.first ≤ b.first).Pairwise fun a b => a.first ≤ b.first := by
  have htrans : ∀ a b c : Span, decide (a.first ≤ b.first) → decide (b.first ≤ c.first) →
      decide (a.first ≤ c.first) := by
    intro a b c
    simpa using le_trans
  have htotal : ∀ a b : Span, (decide (a.first ≤ b.first) || decide (b.first ≤ a.first)) = true := by
    intro a b
    simpa using le_total a.first b.first
  exact (List.pairwise_mergeSort htrans htotal spans).imp fun hab => by simpa using hab

/-- Stretches that are lines, in any order, are the lines when they are sorted. -/
lemma mergeSort_spans {spans : List Span} (hne : ∀ l ∈ ls, l ≠ [])
    (h : spans.Perm (lineSpans chosen start ls)) :
    (spans.mergeSort fun a b => a.first ≤ b.first) = lineSpans chosen start ls := by
  have hsorted : (lineSpans chosen start ls).Pairwise fun a b => a.first < b.first :=
    pairwise_lineSpans hne
  have hmerged := pairwise_mergeSort spans
  have hperm := (List.mergeSort_perm spans fun a b => decide (a.first ≤ b.first)).trans h
  refine List.Perm.eq_of_pairwise ?_ hmerged (hsorted.imp le_of_lt) hperm
  intro a b ha hb hab hba
  have ha' := hperm.mem_iff.1 ha
  have hsymm : Std.Symm fun a b : Span => a.first ≠ b.first := ⟨fun _ _ h => h.symm⟩
  by_contra hdistinct
  exact (hsorted.imp ne_of_lt).forall ha' hb hdistinct (Nat.le_antisymm hab hba)

lemma removeSpans_lineSpans (before : List Char) (ls : List (List Char)) :
    removeSpans (before ++ ls.flatten) (lineSpans chosen before.length ls) =
      before ++ (ls.filter fun l => !chosen l).flatten := by
  induction ls generalizing before with
  | nil => rfl
  | cons l ls ih =>
    have hrest := ih (before ++ l)
    rw [List.length_append, List.append_assoc] at hrest
    rw [lineSpans_cons, List.filter_cons, List.flatten_cons]
    cases hl : chosen l with
    | true =>
      rw [if_pos rfl, List.singleton_append, removeSpans, List.foldr_cons, ← removeSpans, hrest]
      simp
    | false => simpa using hrest

lemma lineSpans_eq_cons {s : Span} {spans : List Span} (h : lineSpans chosen start ls = s :: spans) :
    ∃ front l back, ls = front ++ l :: back ∧ (∀ m ∈ front, chosen m = false) ∧ chosen l = true ∧
      s.first = start + front.flatten.length ∧ s.indent = l.takeWhile isMargin ∧
      s :: spans = lineSpans chosen s.first (l :: back) := by
  induction ls generalizing start with
  | nil => cases h
  | cons l ls ih =>
    rw [lineSpans_cons] at h
    cases hl : chosen l with
    | true =>
      rw [hl] at h
      obtain ⟨rfl, -⟩ := List.cons.inj h
      refine ⟨[], l, ls, rfl, by simp, hl, by simp, rfl, ?_⟩
      rw [lineSpans_cons, hl]
      exact h.symm
    | false =>
      rw [hl] at h
      obtain ⟨front, m, back, rfl, hfront, hm, hfirst, hindent, hspans⟩ := ih h
      refine ⟨l :: front, m, back, rfl, ?_, hm, ?_, hindent, hspans⟩
      · intro k hk
        rcases List.mem_cons.1 hk with rfl | hk
        · exact hl
        · exact hfront k hk
      · rw [hfirst, List.flatten_cons, List.length_append]
        omega

end Spans

end ViewWriter.Script
