import Mathlib.Data.List.Forall2
import ViewWriter.Proofs.Script.Replacement

/-! Shared blocks put back where they are named. One round of sharing is undone up to the spaces of
blank lines, and so is every run of rounds. -/

namespace ViewWriter.Script

open ViewWriter.Text

def declarationStart (n : ℕ) : List Char :=
  "const ".toList ++ sharedName n ++ " = () => (".toList

def declarationEnd : List Char := ");".toList

/-- The margin of a line that holds nothing but the name of a shared block. -/
def useMargin? (name l : List Char) : Option (List Char) :=
  let indent := l.takeWhile isMargin
  if l = useLine name indent then some indent else none

def indented (indent l : List Char) : List Char := if isBlankLine l then l else indent ++ l

def outdented (indent l : List Char) : List Char := if isBlankLine l then l else l.drop indent.length

def inlineLine (name : List Char) (body : List (List Char)) (l : List Char) : List (List Char) :=
  match useMargin? name l with
  | some indent => body.map (indented indent)
  | none => [l]

/-- The lines without the declaration of a shared block and with its body wherever it is named. -/
def inlined (unit : List Char) (n : ℕ) (ls : List (List Char)) : List (List Char) :=
  match ls.dropWhile (· != declarationStart n) with
  | [] => ls
  | _ :: after =>
    let body := (after.takeWhile (· != declarationEnd)).map (outdented unit)
    let rest := (after.dropWhile (· != declarationEnd)).drop 2
    (ls.takeWhile (· != declarationStart n) ++ rest).flatMap (inlineLine (sharedName n) body)

/-- Lines that differ at most in their white space, if there is nothing else in them. -/
def SameLine (a b : List Char) : Prop := a = b ∨ isBlankLine a = true ∧ isBlankLine b = true

def SameLines (xs ys : List (List Char)) : Prop := List.Forall₂ SameLine xs ys

section Same

lemma SameLine.refl (a : List Char) : SameLine a a := .inl rfl

lemma SameLine.trans {a b c : List Char} (h₁ : SameLine a b) (h₂ : SameLine b c) : SameLine a c := by
  rcases h₁ with rfl | ⟨ha, hb⟩
  · exact h₂
  · rcases h₂ with rfl | ⟨-, hc⟩
    · exact .inr ⟨ha, hb⟩
    · exact .inr ⟨ha, hc⟩

lemma SameLines.refl (xs : List (List Char)) : SameLines xs xs :=
  List.forall₂_same.2 fun l _ => SameLine.refl l

lemma SameLines.trans {xs ys zs : List (List Char)} (h₁ : SameLines xs ys)
    (h₂ : SameLines ys zs) : SameLines xs zs := by
  unfold SameLines at *
  induction h₁ generalizing zs with
  | nil => exact h₂
  | cons hab _ ih =>
    obtain ⟨c, cs, hbc, hcs, rfl⟩ := List.forall₂_cons_left_iff.1 h₂
    exact .cons (hab.trans hbc) (ih hcs)

lemma SameLine.eq_iff {a b l : List Char} (h : SameLine a b) (hl : isBlankLine l = false) :
    a = l ↔ b = l := by
  rcases h with rfl | ⟨ha, hb⟩
  · rfl
  · constructor
    · rintro rfl
      simp [hl] at ha
    · rintro rfl
      simp [hl] at hb

variable {xs ys : List (List Char)} {p : List Char → Bool}

lemma SameLines.takeWhile (hp : ∀ a b, SameLine a b → p a = p b) (h : SameLines xs ys) :
    SameLines (xs.takeWhile p) (ys.takeWhile p) := by
  unfold SameLines at *
  induction h with
  | nil => exact .nil
  | @cons a b as bs hab _ ih =>
    cases hb : p b with
    | false => simp [hp a b hab, hb]
    | true => simpa [hp a b hab, hb] using ⟨hab, ih⟩

lemma SameLines.dropWhile (hp : ∀ a b, SameLine a b → p a = p b) (h : SameLines xs ys) :
    SameLines (xs.dropWhile p) (ys.dropWhile p) := by
  unfold SameLines at *
  induction h with
  | nil => exact .nil
  | @cons a b as bs hab h ih =>
    cases hb : p b with
    | false => simpa [hp a b hab, hb] using ⟨hab, h⟩
    | true => simpa [hp a b hab, hb] using ih

end Same

section Congruence

variable {xs ys : List (List Char)}

lemma bne_congr {l : List Char} (hl : isBlankLine l = false) (a b : List Char)
    (h : SameLine a b) : (a != l) = (b != l) := by
  have hiff := h.eq_iff hl
  rw [Bool.eq_iff_iff, bne_iff_ne, bne_iff_ne]
  exact not_congr hiff

lemma declarationStart_not_blank (n : ℕ) : isBlankLine (declarationStart n) = false := rfl

lemma useLine_not_blank (name indent : List Char) : isBlankLine (useLine name indent) = false := by
  rw [useLine, List.append_assoc]
  exact isBlankLine_append_cons (by decide) _

lemma isBlankLine_margin_append {indent : List Char} (h : ∀ c ∈ indent, isMargin c) (l : List Char) :
    isBlankLine (indent ++ l) = isBlankLine l := by
  have hindent : indent.all isBlank = true :=
    List.all_eq_true.2 fun c hc => isBlank_of_isMargin (h c hc)
  rw [isBlankLine, List.all_append, hindent, Bool.true_and]
  rfl

lemma useMargin?_eq_none_of_blank {l : List Char} (name : List Char) (h : isBlankLine l = true) :
    useMargin? name l = none := by
  rw [useMargin?, if_neg]
  intro e
  rw [e, useLine_not_blank] at h
  cases h

lemma outdented_congr (unit : List Char) {a b : List Char} (h : SameLine a b) :
    SameLine (outdented unit a) (outdented unit b) := by
  rcases h with rfl | ⟨ha, hb⟩
  · exact .refl _
  · simpa [outdented, ha, hb] using .inr ⟨ha, hb⟩

lemma IgnoresMargin.of_indented {α : Type} {f : List Char → α} {unit : List Char}
    (hf : IgnoresMargin f) (hunit : ∀ c ∈ unit, isMargin c) (l : List Char) :
    f (indented unit l) = f l := by
  rw [indented]
  split_ifs
  · rfl
  · exact hf.margin unit l hunit

lemma indented_congr (indent : List Char) {a b : List Char} (h : SameLine a b) :
    SameLine (indented indent a) (indented indent b) := by
  rcases h with rfl | ⟨ha, hb⟩
  · exact .refl _
  · simpa [indented, ha, hb] using .inr ⟨ha, hb⟩

lemma SameLines.map {f : List Char → List Char} (hf : ∀ {a b}, SameLine a b → SameLine (f a) (f b))
    (h : SameLines xs ys) : SameLines (xs.map f) (ys.map f) :=
  List.forall₂_map_left_iff.2 (List.forall₂_map_right_iff.2 (h.imp fun _ _ => hf))

lemma inlineLine_congr (name : List Char) {a b : List Char} (hab : SameLine a b)
    (h : SameLines xs ys) : SameLines (inlineLine name xs a) (inlineLine name ys b) := by
  rcases hab with rfl | ⟨ha, hb⟩
  · unfold inlineLine
    cases useMargin? name a with
    | some indent => exact h.map (indented_congr indent)
    | none => exact .refl _
  · rw [inlineLine, inlineLine, useMargin?_eq_none_of_blank name ha,
      useMargin?_eq_none_of_blank name hb]
    exact .cons (.inr ⟨ha, hb⟩) .nil

lemma SameLines.inlined (unit : List Char) (n : ℕ) (h : SameLines xs ys) :
    SameLines (inlined unit n xs) (inlined unit n ys) := by
  have hstart := bne_congr (declarationStart_not_blank n)
  have hend := bne_congr (l := declarationEnd) rfl
  have hdrop := h.dropWhile hstart
  unfold Script.inlined
  generalize xs.dropWhile (· != declarationStart n) = xs' at hdrop
  generalize ys.dropWhile (· != declarationStart n) = ys' at hdrop
  cases hdrop with
  | nil => exact h
  | cons _ hafter =>
    have hafter : SameLines _ _ := hafter
    have hbody := (hafter.takeWhile hend).map (outdented_congr unit)
    have hrest : SameLines _ _ := List.forall₂_drop 2 (hafter.dropWhile hend)
    have hall : SameLines _ _ := List.rel_append (h.takeWhile hstart) hrest
    exact List.rel_flatMap hall fun a b hab => inlineLine_congr (sharedName n) hab hbody

end Congruence

/-- One round of sharing: copies of a block give way to a name that stood nowhere, and the block
is declared before the first line that begins an export. -/
inductive SharedOnce (unit : List Char) (n : ℕ) (xs : List (List Char)) :
    List (List Char) → Prop
  | intro {body replaced : List (List Char)} {k : ℕ}
      (replaces : Replaced (sharedName n) body k xs replaced) (copies : 2 ≤ k)
      (fresh : ∀ l ∈ xs, Nat.toDigits 10 n ∉ sharedNumbers none l)
      (exports : hasExport xs = true) :
      SharedOnce unit n xs (beforeExport (sharedDeclaration unit (sharedName n) body) replaced)

section Restoring

lemma copy_restored {indent : List Char} {body block : List (List Char)}
    (h : IsCopy indent body block) : SameLines (body.map (indented indent)) block := by
  rw [← h.body_eq, List.map_map]
  refine List.forall₂_map_left_iff.2 (List.forall₂_same.2 ?_)
  intro l hl
  rw [Function.comp_apply]
  rcases h.inside l hl with hblank | ⟨c, rest, rfl, -⟩
  · have hdrop := isBlankLine_drop hblank indent.length
    rw [indented, if_pos hdrop]
    exact .inr ⟨hdrop, hblank⟩
  · rw [List.drop_left, indented]
    split_ifs with hblank
    · exact .inr ⟨hblank, by rwa [isBlankLine_margin_append h.margin]⟩
    · exact .refl _

lemma takeWhile_useLine {indent : List Char} (h : ∀ c ∈ indent, isMargin c) (name : List Char) :
    (useLine name indent).takeWhile isMargin = indent := by
  rw [useLine, List.append_assoc]
  exact takeWhile_stop h rfl

lemma useMargin?_useLine {indent : List Char} (h : ∀ c ∈ indent, isMargin c) (name : List Char) :
    useMargin? name (useLine name indent) = some indent := by
  rw [useMargin?, takeWhile_useLine h]
  exact if_pos rfl

lemma hasWord_useLine (n : ℕ) (indent : List Char) :
    HasWord (sharedName n) (useLine (sharedName n) indent) := by
  refine ⟨indent ++ ['<'], " />".toList, by simp [useLine], ?_, ?_⟩
  · intro c hc
    obtain rfl : '<' = c := by simpa using hc
    decide
  · intro c hc
    obtain rfl : ' ' = c := by simpa using hc
    decide

lemma hasWord_declarationStart (n : ℕ) : HasWord (sharedName n) (declarationStart n) := by
  refine ⟨"const ".toList, " = () => (".toList, rfl, ?_, ?_⟩ <;>
  · intro c hc
    obtain rfl : ' ' = c := by simpa using hc
    decide

lemma useMargin?_of_fresh {n : ℕ} {l : List Char}
    (h : Nat.toDigits 10 n ∉ sharedNumbers none l) : useMargin? (sharedName n) l = none := by
  rw [useMargin?, if_neg]
  intro e
  rw [e] at h
  exact h (mem_sharedNumbers_of_hasWord (hasWord_useLine n _))

variable {n k : ℕ} {body xs ys : List (List Char)}

lemma Replaced.restored (h : Replaced (sharedName n) body k xs ys)
    (hfresh : ∀ l ∈ xs, Nat.toDigits 10 n ∉ sharedNumbers none l) :
    SameLines (ys.flatMap (inlineLine (sharedName n) body)) xs := by
  induction h with
  | nil => exact .nil
  | keep l h ih =>
    rw [List.flatMap_cons, inlineLine, useMargin?_of_fresh (hfresh l List.mem_cons_self)]
    exact .cons (.refl l) (ih fun m hm => hfresh m (List.mem_cons_of_mem _ hm))
  | copy hcopy h ih =>
    rw [List.flatMap_cons, inlineLine, useMargin?_useLine hcopy.margin]
    exact List.rel_append (copy_restored hcopy)
      (ih fun m hm => hfresh m (List.mem_append_right _ hm))

lemma Replaced.exists_copy {name : List Char} (h : Replaced name body k xs ys) (hk : 0 < k) :
    ∃ indent block, IsCopy indent body block ∧ ∀ l ∈ block, l ∈ xs := by
  induction h with
  | nil => simp at hk
  | keep l _ ih =>
    obtain ⟨indent, block, hcopy, hmem⟩ := ih hk
    exact ⟨indent, block, hcopy, fun m hm => List.mem_cons_of_mem _ (hmem m hm)⟩
  | copy hcopy _ _ => exact ⟨_, _, hcopy, fun m hm => List.mem_append_left _ hm⟩

lemma IsCopy.body_not_fixed {indent : List Char} {block : List (List Char)}
    (h : IsCopy indent body block) {l : List Char} (hl : l ∈ body) : isFixed l = false := by
  rw [← h.body_eq] at hl
  obtain ⟨m, hm, rfl⟩ := List.mem_map.1 hl
  rcases h.inside m hm with hblank | ⟨c, rest, rfl, hc⟩
  · exact isFixed_of_blank (isBlankLine_drop hblank indent.length)
  · rw [List.drop_left]
    rcases hc with rfl | rfl <;> rfl

variable {unit : List Char}

lemma outdented_indented (hunit : ∀ c ∈ unit, isMargin c) (l : List Char) :
    outdented unit (indented unit l) = l := by
  unfold indented
  split_ifs with h
  · rw [outdented, if_pos h]
  · rw [outdented, isBlankLine_margin_append hunit, if_neg h, List.drop_left]

lemma indented_not_fixed (hunit : ∀ c ∈ unit, isMargin c) {l : List Char} (h : isFixed l = false) :
    isFixed (indented unit l) = false := by
  unfold indented
  split_ifs
  · exact h
  · cases unit with
    | nil => exact h
    | cons c rest => simp [isFixed, isBlank_of_isMargin (hunit c List.mem_cons_self)]

lemma sharedDeclaration_eq (unit : List Char) (n : ℕ) (body : List (List Char)) :
    sharedDeclaration unit (sharedName n) body =
      declarationStart n :: (body.map (indented unit) ++ [declarationEnd, []]) := rfl

lemma ne_of_isFixed {a b : List Char} (ha : isFixed a = false) (hb : isFixed b = true) : a ≠ b := by
  rintro rfl
  simp [ha] at hb

/-- A round of sharing is undone by inlining. -/
lemma SharedOnce.restored (hunit : ∀ c ∈ unit, isMargin c) (h : SharedOnce unit n xs ys) :
    SameLines (inlined unit n ys) xs := by
  obtain ⟨hreplaced, hcopies, hfresh, -⟩ := h
  rename_i body replaced k
  obtain ⟨_, _, hcopy, -⟩ := hreplaced.exists_copy (by omega)
  have hfront : ∀ l ∈ replaced.takeWhile (!beginsExport ·), (l != declarationStart n) = true := by
    intro l hl
    rw [bne_iff_ne]
    rcases hreplaced.mem_right ((List.takeWhile_prefix _).mem hl) with hl | ⟨indent, hi, rfl⟩
    · rintro rfl
      exact hfresh _ hl (mem_sharedNumbers_of_hasWord (hasWord_declarationStart n))
    · exact ne_of_isFixed (useLine_not_fixed hi) rfl
  have hbody : ∀ l ∈ body.map (indented unit), (l != declarationEnd) = true := by
    intro l hl
    obtain ⟨m, hm, rfl⟩ := List.mem_map.1 hl
    exact bne_iff_ne.2 (ne_of_isFixed (indented_not_fixed hunit (hcopy.body_not_fixed hm)) rfl)
  have hback : (body.map (indented unit)).map (outdented unit) = body := by
    rw [List.map_map]
    exact (List.map_congr_left fun l _ => outdented_indented hunit l).trans (List.map_id body)
  have hstart : (declarationStart n != declarationStart n) = false := by simp
  have hend : (declarationEnd != declarationEnd) = false := by simp
  have hlines : beforeExport (sharedDeclaration unit (sharedName n) body) replaced =
      replaced.takeWhile (!beginsExport ·) ++ declarationStart n :: (body.map (indented unit) ++
        declarationEnd :: [] :: replaced.dropWhile (!beginsExport ·)) := by
    simp [beforeExport, sharedDeclaration_eq]
  rw [hlines, inlined, dropWhile_stop hfront hstart, takeWhile_stop hfront hstart]
  simp only [takeWhile_stop hbody hend, dropWhile_stop hbody hend, hback, List.drop_succ_cons,
    List.drop_zero, List.takeWhile_append_dropWhile]
  exact hreplaced.restored hfresh

end Restoring

end ViewWriter.Script
