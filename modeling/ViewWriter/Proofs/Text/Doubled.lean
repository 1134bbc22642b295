import Mathlib.Data.List.Infix
import Mathlib.Tactic.Lemma
import ViewWriter.Text.Split

/-! Characters that stand twice in a row. Two texts put together have one if one of them has, or if the
first ends and the second begins with it. -/

namespace ViewWriter.Text

/-- The character stands twice in a row somewhere in the text. -/
def Doubles (c : Char) (cs : List Char) : Prop := [c, c] <:+: cs

instance (c : Char) (cs : List Char) : Decidable (Doubles c cs) :=
  inferInstanceAs (Decidable ([c, c] <:+: cs))

variable {c d : Char} {cs ds gap : List Char}

lemma not_doubles_of_notMem (h : c ∉ cs) : ¬ Doubles c cs :=
  fun hm => h (hm.subset List.mem_cons_self)

lemma not_doubles_nil : ¬ Doubles c [] := not_doubles_of_notMem List.not_mem_nil

lemma doubles_cons_iff : Doubles c (d :: cs) ↔ (d = c ∧ cs.head? = some c) ∨ Doubles c cs := by
  rw [Doubles, List.infix_cons_iff, List.cons_prefix_cons, eq_comm]
  refine or_congr_left (and_congr_right fun _ => ?_)
  cases cs with
  | nil => simp
  | cons e cs => simp [eq_comm]

lemma doubles_append_iff : Doubles c (cs ++ ds) ↔
    Doubles c cs ∨ Doubles c ds ∨ (cs.getLast? = some c ∧ ds.head? = some c) := by
  induction cs with
  | nil => simp [not_doubles_nil]
  | cons e cs ih =>
    rw [List.cons_append, doubles_cons_iff, ih, doubles_cons_iff]
    cases cs with
    | nil => simp [not_doubles_nil, or_comm]
    | cons f cs => simp [or_assoc]

lemma doubles_plain_append (h : c ∉ cs) : Doubles c (cs ++ ds) ↔ Doubles c ds := by
  have hlast : cs.getLast? ≠ some c := fun hl => h (List.mem_of_getLast? hl)
  simp [doubles_append_iff, not_doubles_of_notMem h, hlast]

lemma doubles_append_plain (h : c ∉ ds) : Doubles c (cs ++ ds) ↔ Doubles c cs := by
  have hhead : ds.head? ≠ some c := fun hh => h (List.mem_of_mem_head? hh)
  simp [doubles_append_iff, not_doubles_of_notMem h, hhead]

lemma doubles_append_stop (h : d ≠ c) : Doubles c (cs ++ d :: ds) ↔ Doubles c cs ∨ Doubles c ds := by
  rw [doubles_append_iff, doubles_cons_iff]
  simp [h]

lemma doubles_append_gap (hgap : c ∉ gap) (hne : gap ≠ []) :
    Doubles c (cs ++ (gap ++ ds)) ↔ Doubles c cs ∨ Doubles c ds := by
  obtain ⟨d, gap, rfl⟩ := List.exists_cons_of_ne_nil hne
  rw [List.mem_cons, not_or] at hgap
  rw [List.cons_append, doubles_append_stop (Ne.symm hgap.1), doubles_plain_append hgap.2]

section Writing

variable {f : Char → List Char} (hself : f c = [c]) (hother : ∀ d, d ≠ c → f d ≠ [] ∧ c ∉ f d)

include hself hother

lemma head?_flatMap_iff : (cs.flatMap f).head? = some c ↔ cs.head? = some c := by
  cases cs with
  | nil => simp
  | cons d cs =>
    rw [List.flatMap_cons]
    by_cases hd : d = c
    · simp [hd, hself]
    · obtain ⟨hne, hnot⟩ := hother d hd
      obtain ⟨e, rest, hf⟩ := List.exists_cons_of_ne_nil hne
      rw [hf, List.mem_cons, not_or] at hnot
      simp [hf, hd, Ne.symm hnot.1]

/-- Writing the other characters in other ways neither makes nor parts a pair. -/
lemma doubles_flatMap : Doubles c (cs.flatMap f) ↔ Doubles c cs := by
  induction cs with
  | nil => simp
  | cons d cs ih =>
    have hpair : Doubles c (d :: cs) ↔ (d = c ∧ cs.head? = some c) ∨ Doubles c cs := doubles_cons_iff
    rw [List.flatMap_cons, hpair]
    by_cases hd : d = c
    · rw [hd, hself, List.singleton_append, doubles_cons_iff, head?_flatMap_iff hself hother, ih]
    · rw [doubles_plain_append (hother d hd).2, ih]
      simp [hd]

end Writing

lemma doubles_joinWith (h : d ≠ c) {pieces : List (List Char)} :
    Doubles c (joinWith [d] pieces) ↔ ∃ piece ∈ pieces, Doubles c piece := by
  induction pieces with
  | nil => simp [joinWith, not_doubles_nil]
  | cons piece rest ih =>
    cases rest with
    | nil => simp [joinWith]
    | cons next rest =>
      rw [joinWith, intercalate_cons_ne (List.cons_ne_nil next rest), List.singleton_append,
        doubles_append_stop h, ← joinWith, ih]
      simp

end ViewWriter.Text
