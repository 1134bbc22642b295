import Mathlib.Algebra.Ring.Nat
import Mathlib.Data.List.Infix
import ViewWriter.Proofs.Script.Identifier
import ViewWriter.Proofs.Text.Needle

/-! How often a word stands in a text. A word without blanks stands there as often as in its lines
together, and as often after the text has been tidied. -/

namespace ViewWriter.Text

/-- The number of places of a text where a word begins, when the text is folded. -/
def occurrences (fold : Char → Char) (word cs : List Char) : ℕ :=
  cs.tails.countP fun rest => word.isPrefixOf (rest.map fold)

section Occurrences

variable {fold : Char → Char} {word cs ds : List Char} {c : Char}

lemma occurrences_nil (hne : word ≠ []) : occurrences fold word [] = 0 := by
  cases word with
  | nil => contradiction
  | cons => rfl

lemma occurrences_cons (c : Char) (cs : List Char) :
    occurrences fold word (c :: cs) =
      occurrences fold word cs + if word.isPrefixOf ((c :: cs).map fold) then 1 else 0 := by
  rw [occurrences, List.tails_cons, List.countP_cons, ← occurrences]

lemma occurrences_eq_zero_iff (hne : word ≠ []) :
    occurrences fold word cs = 0 ↔ ¬ word <:+: cs.map fold := by
  induction cs with
  | nil => simp [occurrences_nil hne, hne]
  | cons c cs ih =>
    rw [occurrences_cons, Nat.add_eq_zero_iff, ih, List.map_cons, List.infix_cons_iff, not_or,
      ← List.isPrefixOf_iff_prefix, and_comm]
    exact and_congr_left fun _ => by split_ifs with hstarts <;> simp [hstarts]

lemma occurrences_of_head (hne : word ≠ []) (hc : ∀ d ∈ word.head?, d ≠ fold c) (cs : List Char) :
    occurrences fold word (c :: cs) = occurrences fold word cs := by
  have hno : ¬ word.isPrefixOf ((c :: cs).map fold) = true := by
    rw [List.isPrefixOf_iff_prefix, List.map_cons]
    cases word with
    | nil => contradiction
    | cons d word => exact fun h => hc d List.head?_cons (List.cons_prefix_cons.1 h).1
  rw [occurrences_cons, if_neg hno, Nat.add_zero]

lemma prefix_append_stop (hc : fold c ∉ word.tail) (hne : cs ≠ []) :
    word <+: (cs ++ c :: ds).map fold ↔ word <+: cs.map fold := by
  rw [List.map_append]
  refine ⟨fun h => ?_, fun h => h.trans (List.prefix_append _ _)⟩
  rcases List.prefix_or_prefix_of_prefix h (List.prefix_append _ _) with hshort | ⟨more, rfl⟩
  · exact hshort
  · rw [List.prefix_append_right_inj] at h
    cases more with
    | nil => rw [List.append_nil]
    | cons e more =>
      obtain ⟨rfl, -⟩ := List.cons_prefix_cons.1 h
      obtain ⟨d, cs, rfl⟩ := List.exists_cons_of_ne_nil hne
      exact absurd (by simp) hc

lemma occurrences_append_stop (hne : word ≠ []) (hc : fold c ∉ word.tail) (cs ds : List Char) :
    occurrences fold word (cs ++ c :: ds) =
      occurrences fold word cs + occurrences fold word (c :: ds) := by
  induction cs with
  | nil => rw [List.nil_append, occurrences_nil hne, Nat.zero_add]
  | cons d cs ih =>
    have hprefix : word.isPrefixOf ((d :: (cs ++ c :: ds)).map fold) =
        word.isPrefixOf ((d :: cs).map fold) := by
      rw [Bool.eq_iff_iff, List.isPrefixOf_iff_prefix, List.isPrefixOf_iff_prefix]
      exact prefix_append_stop hc (List.cons_ne_nil d cs)
    rw [List.cons_append, occurrences_cons, occurrences_cons, ih, hprefix]
    omega

lemma occurrences_le_append (cs ds : List Char) :
    occurrences fold word cs ≤ occurrences fold word (cs ++ ds) := by
  induction cs with
  | nil =>
    cases ds with
    | nil => exact le_rfl
    | cons c ds =>
      rw [occurrences, List.nil_append, occurrences]
      exact List.Sublist.countP_le (List.singleton_sublist.2 (by simp))
  | cons c cs ih =>
    rw [List.cons_append, occurrences_cons, occurrences_cons]
    refine Nat.add_le_add ih ?_
    split_ifs with hshort hlong
    · exact le_rfl
    · refine absurd ?_ hlong
      rw [List.isPrefixOf_iff_prefix] at hshort ⊢
      exact hshort.trans ((List.prefix_append (c :: cs) ds).map fold)
    · exact Nat.zero_le 1
    · exact le_rfl

lemma occurrences_le_of_suffix (cs ds : List Char) :
    occurrences fold word ds ≤ occurrences fold word (cs ++ ds) := by
  induction cs with
  | nil => exact le_rfl
  | cons c cs ih =>
    rw [List.cons_append, occurrences_cons]
    exact ih.trans (Nat.le_add_right _ _)

lemma occurrences_le_of_isInfix (h : cs <:+: ds) :
    occurrences fold word cs ≤ occurrences fold word ds := by
  obtain ⟨before, after, rfl⟩ := h
  exact (occurrences_le_of_suffix before cs).trans (occurrences_le_append _ after)

end Occurrences

/-- A word that no blank is part of. -/
structure IsUnbroken (fold : Char → Char) (word : List Char) : Prop where
  ne_nil : word ≠ []
  blank : ∀ c, isBlank c = true → fold c ∉ word

namespace IsUnbroken

variable {fold : Char → Char} {word cs : List Char}

lemma append_blank (h : IsUnbroken fold word) {c : Char} (hc : isBlank c = true) (cs ds : List Char) :
    occurrences fold word (cs ++ c :: ds) = occurrences fold word cs + occurrences fold word ds := by
  have hhead : ∀ d ∈ word.head?, d ≠ fold c := fun d hd he =>
    h.blank c hc (he ▸ List.mem_of_mem_head? hd)
  rw [occurrences_append_stop h.ne_nil fun hm => h.blank c hc (List.mem_of_mem_tail hm),
    occurrences_of_head h.ne_nil hhead]

lemma append_blanks (h : IsUnbroken fold word) {tail : List Char}
    (htail : ∀ c ∈ tail, isBlank c = true) (cs : List Char) :
    occurrences fold word (cs ++ tail) = occurrences fold word cs := by
  induction tail generalizing cs with
  | nil => rw [List.append_nil]
  | cons c tail ih =>
    obtain ⟨hc, hrest⟩ := List.forall_mem_cons.1 htail
    have hnone := ih hrest []
    rw [List.nil_append, occurrences_nil h.ne_nil] at hnone
    rw [h.append_blank hc, hnone, Nat.add_zero]

lemma blanks_append (h : IsUnbroken fold word) {margin : List Char}
    (hmargin : ∀ c ∈ margin, isBlank c = true) (cs : List Char) :
    occurrences fold word (margin ++ cs) = occurrences fold word cs := by
  induction margin with
  | nil => rfl
  | cons c margin ih =>
    obtain ⟨hc, hrest⟩ := List.forall_mem_cons.1 hmargin
    have hfirst := h.append_blank hc [] (margin ++ cs)
    rwa [List.nil_append, occurrences_nil h.ne_nil, Nat.zero_add, ih hrest] at hfirst

lemma unlines (h : IsUnbroken fold word) (ls : List (List Char)) :
    occurrences fold word (unlines ls) = (ls.map (occurrences fold word)).sum := by
  induction ls with
  | nil => exact occurrences_nil h.ne_nil
  | cons l rest ih =>
    cases rest with
    | nil => simp [Text.unlines, joinWith]
    | cons next rest =>
      have hbreak : Text.unlines (l :: next :: rest) = l ++ '\n' :: Text.unlines (next :: rest) := by
        rw [Text.unlines, joinWith, intercalate_cons_ne (List.cons_ne_nil next rest)]
        rfl
      rw [hbreak, h.append_blank (by decide), ih]
      rfl

lemma lines (h : IsUnbroken fold word) (cs : List Char) :
    ((lines cs).map (occurrences fold word)).sum = occurrences fold word cs := by
  rw [← h.unlines, lines_unlines_lines]

lemma collapse (h : IsUnbroken fold word) (afterEmpty : Bool) (ls : List (List Char)) :
    ((collapse afterEmpty ls).map (occurrences fold word)).sum =
      (ls.map (occurrences fold word)).sum := by
  induction ls generalizing afterEmpty with
  | nil => rfl
  | cons l rest ih =>
    rw [Text.collapse]
    split_ifs with hempty hafter
    · rw [ih true, List.isEmpty_iff.1 hempty]
      simp [occurrences_nil h.ne_nil]
    · rw [List.isEmpty_iff.1 hempty]
      simp [ih true]
    · simp [ih false]

lemma trimEnd (h : IsUnbroken fold word) (cs : List Char) :
    occurrences fold word (trimEnd isBlank cs) = occurrences fold word cs := by
  have hsplit : cs = Text.trimEnd isBlank cs ++ cs.rtakeWhile isBlank := by
    rw [trimEnd_eq_rdropWhile, List.rdropWhile_append_rtakeWhile]
  conv_rhs => rw [hsplit]
  exact (h.append_blanks (fun _ hc => List.mem_rtakeWhile_imp hc) _).symm

lemma trim_breaks (h : IsUnbroken fold word) (cs : List Char) :
    occurrences fold word (trim (· == '\n') cs) = occurrences fold word cs := by
  have hbreak : ∀ c : Char, (c == '\n') = true → isBlank c = true := fun c hc => by
    rw [beq_iff_eq.1 hc]
    decide
  obtain ⟨margin, tail, hcs, hmargin, htail⟩ := exists_trim (· == '\n') cs
  conv_rhs => rw [hcs]
  rw [h.append_blanks fun c hc => hbreak c (htail c hc), h.blanks_append fun c hc =>
    hbreak c (hmargin c hc)]

/-- A text in front of the start of a line keeps apart from what comes after it. -/
lemma append_of_atLineStart (h : IsUnbroken fold word) (hcs : AtLineStart cs) (ds : List Char) :
    occurrences fold word (cs ++ ds) = occurrences fold word cs + occurrences fold word ds := by
  rcases hcs with rfl | ⟨front, rfl⟩
  · rw [List.nil_append, occurrences_nil h.ne_nil, Nat.zero_add]
  · rw [List.append_assoc, List.singleton_append, h.append_blank (by decide),
      h.append_blank (by decide), occurrences_nil h.ne_nil, Nat.add_zero]

/-- Tidying takes blanks and empty lines away, and the word has neither. -/
lemma tidyChars (h : IsUnbroken fold word) (cs : List Char) :
    occurrences fold word (tidyChars cs) = occurrences fold word cs := by
  have hkept : occurrences fold word
      (Text.unlines (Text.collapse false ((Text.lines cs).map (Text.trimEnd isBlank)))) =
        occurrences fold word cs := by
    calc occurrences fold word
          (Text.unlines (Text.collapse false ((Text.lines cs).map (Text.trimEnd isBlank))))
        = (((Text.lines cs).map (Text.trimEnd isBlank)).map (occurrences fold word)).sum := by
          rw [h.unlines, h.collapse]
      _ = ((Text.lines cs).map (occurrences fold word)).sum := by
          rw [List.map_map]
          exact congrArg List.sum (List.map_congr_left fun l _ => h.trimEnd l)
      _ = occurrences fold word cs := h.lines cs
  rw [← hkept, ← h.trim_breaks (Text.unlines _), Text.tidyChars]
  split
  · rename_i hempty
    rw [hempty]
  · exact h.append_blanks (fun c hc => by rw [List.mem_singleton.1 hc]; decide) _

end IsUnbroken

namespace Needle

def count (n : Needle) (cs : List Char) : ℕ := occurrences n.fold n.text cs

variable {n : Needle} {cs ds : List Char} {c : Char}

lemma isUnbroken (n : Needle) : IsUnbroken n.fold n.text where
  ne_nil := List.cons_ne_nil _ _
  blank c hc hm := by
    have hother : c ≠ '.' ∧ c ≠ '-' ∧ c ≠ '/' ∧ c ≠ '<' := by
      refine ⟨?_, ?_, ?_, ?_⟩ <;> rintro rfl <;> exact absurd hc (by decide)
    have hstop : isStop c = true := by
      simp [isStop, Script.isIdentifierPart_of_blank hc, hother]
    rcases List.mem_cons.1 hm with hhead | htail
    · have hplain := n.head_not_plain
      rw [← n.eq_head c hhead] at hplain
      simp [isPlain, hother] at hplain
    · exact n.not_mem_tail hstop htail

lemma count_eq_zero_iff : n.count cs = 0 ↔ n.Avoids cs := occurrences_eq_zero_iff n.isUnbroken.ne_nil

lemma count_of_plain (hc : isPlain c = true) (cs : List Char) : n.count (c :: cs) = n.count cs := by
  refine occurrences_of_head n.isUnbroken.ne_nil (fun d hd he => ?_) cs
  obtain rfl := Option.some.inj (List.head?_cons.symm.trans hd)
  have hhead := n.head_not_plain
  rw [← n.eq_head c he.symm, hc] at hhead
  cases hhead

lemma count_append_stop (hc : isStop c = true) (cs ds : List Char) :
    n.count (cs ++ c :: ds) = n.count cs + n.count (c :: ds) :=
  occurrences_append_stop n.isUnbroken.ne_nil (n.not_mem_tail hc) cs ds

lemma count_append_of_atLineStart (h : AtLineStart cs) (ds : List Char) :
    n.count (cs ++ ds) = n.count cs + n.count ds := n.isUnbroken.append_of_atLineStart h ds

end Needle

end ViewWriter.Text
