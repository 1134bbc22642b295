import Mathlib.Data.List.Basic
import Mathlib.Tactic.Lemma
import ViewWriter.Text.Split

/-! Replacements in whole texts. Where none of them writes a character that a later one looks for,
replacements of characters one after the other put one text in the place of each character. -/

namespace ViewWriter.Text

/-- Replacements one after the other, each in the whole text that the ones before it leave. -/
def replaceInTurn (steps : List (List Char × List Char)) (cs : List Char) : List Char :=
  steps.foldl (fun cs step => replaceAll step.1 step.2 cs) cs

/-- What a table puts in the place of a character. -/
def inPlaceOf (table : List (Char × List Char)) (c : Char) : List Char := (table.lookup c).getD [c]

section Parts

variable {a : Char} {as new : List Char}

lemma replaceFrom_append (a : Char) (as new after : List Char) :
    replaceFrom a as new (a :: as ++ after) = new ++ replaceFrom a as new after := by
  have hstarts : stripPrefix? (a :: as) (a :: as ++ after) = some after :=
    stripPrefix?_eq_some_iff.2 rfl
  rw [List.cons_append] at hstarts ⊢
  rw [replaceFrom]
  split
  · rename_i rest hrest
    rw [hstarts] at hrest
    cases hrest
    rfl
  · rename_i hnone
    rw [hstarts] at hnone
    cases hnone

lemma replaceFrom_cons {c : Char} {cs : List Char} (h : ¬ a :: as <+: c :: cs) (new : List Char) :
    replaceFrom a as new (c :: cs) = c :: replaceFrom a as new cs := by
  rw [replaceFrom]
  split
  · rename_i rest hrest
    exact absurd ⟨rest, (stripPrefix?_eq_some_iff.1 hrest).symm⟩ h
  · rfl

end Parts

section Tables

variable {table : List (Char × List Char)} {c d : Char} {new : List Char}

lemma inPlaceOf_head (c : Char) (new : List Char) : inPlaceOf ((c, new) :: table) c = new := by
  simp [inPlaceOf]

lemma inPlaceOf_tail (h : d ≠ c) : inPlaceOf ((c, new) :: table) d = inPlaceOf table d := by
  rw [inPlaceOf, List.lookup_cons, beq_eq_false_iff_ne.2 h]
  rfl

lemma inPlaceOf_cases (table : List (Char × List Char)) (c : Char) :
    inPlaceOf table c = [c] ∧ c ∉ table.map Prod.fst ∨ (c, inPlaceOf table c) ∈ table := by
  induction table with
  | nil => exact .inl ⟨rfl, List.not_mem_nil⟩
  | cons e table ih =>
    obtain ⟨d, new⟩ := e
    by_cases hc : c = d
    · rw [hc, inPlaceOf_head]
      exact .inr List.mem_cons_self
    · rw [inPlaceOf_tail hc, List.map_cons, List.mem_cons, not_or]
      exact ih.imp (fun h => ⟨h.1, hc, h.2⟩) (List.mem_cons_of_mem _)

lemma inPlaceOf_of_notMem (h : c ∉ table.map Prod.fst) : inPlaceOf table c = [c] := by
  rcases inPlaceOf_cases table c with ⟨hkept, -⟩ | hmem
  · exact hkept
  · exact absurd (List.mem_map_of_mem hmem) h

lemma inPlaceOf_concat (table : List (Char × List Char)) (new : List Char) (h : d ≠ c) :
    inPlaceOf (table ++ [(c, new)]) d = inPlaceOf table d := by
  induction table with
  | nil => exact inPlaceOf_tail h
  | cons e table ih =>
    obtain ⟨key, first⟩ := e
    rw [List.cons_append]
    by_cases hd : d = key
    · rw [hd, inPlaceOf_head, inPlaceOf_head]
    · rw [inPlaceOf_tail hd, inPlaceOf_tail hd, ih]

lemma flatMap_inPlaceOf_of_notMem {cs : List Char} (h : ∀ d ∈ cs, d ∉ table.map Prod.fst) :
    cs.flatMap (inPlaceOf table) = cs := by
  induction cs with
  | nil => rfl
  | cons d cs ih =>
    obtain ⟨hd, hcs⟩ := List.forall_mem_cons.1 h
    rw [List.flatMap_cons, inPlaceOf_of_notMem hd, ih hcs, List.singleton_append]

lemma replaceAll_singleton (c : Char) (new cs : List Char) :
    replaceAll [c] new cs = cs.flatMap (inPlaceOf [(c, new)]) := by
  rw [replaceAll]
  induction cs with
  | nil => rw [replaceFrom, List.flatMap_nil]
  | cons d cs ih =>
    rw [List.flatMap_cons, ← ih]
    by_cases hd : d = c
    · rw [hd, inPlaceOf_head]
      exact replaceFrom_append c [] new cs
    · have hno : ¬ [c] <+: d :: cs := fun h => hd (List.cons_prefix_cons.1 h).1.symm
      rw [inPlaceOf_tail hd, replaceFrom_cons hno]
      rfl

lemma replaceInTurn_table (h : table.Pairwise fun first later => later.1 ∉ first.2) (cs : List Char) :
    replaceInTurn (table.map fun e => ([e.1], e.2)) cs = cs.flatMap (inPlaceOf table) := by
  induction table generalizing cs with
  | nil => exact (flatMap_inPlaceOf_of_notMem fun _ _ => List.not_mem_nil).symm
  | cons e table ih =>
    obtain ⟨c, new⟩ := e
    obtain ⟨hnew, htable⟩ := List.pairwise_cons.1 h
    have hlater : new.flatMap (inPlaceOf table) = new := by
      refine flatMap_inPlaceOf_of_notMem fun d hd hkey => ?_
      obtain ⟨later, hmem, rfl⟩ := List.mem_map.1 hkey
      exact hnew later hmem hd
    have hboth (d : Char) : (inPlaceOf [(c, new)] d).flatMap (inPlaceOf table) =
        inPlaceOf ((c, new) :: table) d := by
      by_cases hd : d = c
      · rw [hd, inPlaceOf_head, inPlaceOf_head, hlater]
      · rw [inPlaceOf_tail hd, inPlaceOf_tail hd]
        exact List.flatMap_singleton _ _
    calc replaceInTurn (((c, new) :: table).map fun e => ([e.1], e.2)) cs
        = replaceInTurn (table.map fun e => ([e.1], e.2)) (replaceAll [c] new cs) := rfl
      _ = (cs.flatMap (inPlaceOf [(c, new)])).flatMap (inPlaceOf table) := by
        rw [ih htable, replaceAll_singleton]
      _ = cs.flatMap (inPlaceOf ((c, new) :: table)) := by
        rw [List.flatMap_assoc]
        exact congrArg cs.flatMap (funext hboth)

end Tables

end ViewWriter.Text
