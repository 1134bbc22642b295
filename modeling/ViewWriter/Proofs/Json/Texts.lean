import ViewWriter.Proofs.Json.OneLine
import ViewWriter.Proofs.Table
import ViewWriter.Proofs.Text.Needle

/-! The texts in a value, and the forms in which the value is written. These avoid a needle if the
texts do. -/

namespace ViewWriter

open ViewWriter.Text

namespace Json

mutual

def texts : Json → List String
  | str s => [s]
  | arr items => itemTexts items
  | obj fields => fieldTexts fields
  | _ => []

def itemTexts : List Json → List String
  | [] => []
  | v :: rest => texts v ++ itemTexts rest

def fieldTexts : List (String × Json) → List String
  | [] => []
  | (k, v) :: rest => k :: texts v ++ fieldTexts rest

end

def Avoids (n : Needle) (v : Json) : Prop := ∀ s ∈ v.texts, n.Avoids s.toList

section Parts

variable {n : Needle} {v w : Json} {items : List Json} {fields : Table Json} {key s : String}

lemma avoids_null : null.Avoids n := fun _ h => by cases h

lemma avoids_bool (b : Bool) : (bool b).Avoids n := fun _ h => by cases h

@[simp]
lemma avoids_str : (str s).Avoids n ↔ n.Avoids s.toList := List.forall_mem_singleton

lemma avoids_arr : (arr items).Avoids n ↔ ∀ v ∈ items, v.Avoids n := by
  rw [Avoids, texts]
  induction items with
  | nil => simp [itemTexts]
  | cons v rest ih => rw [itemTexts, List.forall_mem_append, List.forall_mem_cons, ih, Avoids]

lemma avoids_obj :
    (obj fields).Avoids n ↔ ∀ e ∈ fields, n.Avoids e.1.toList ∧ e.2.Avoids n := by
  rw [Avoids, texts]
  induction fields with
  | nil => simp [fieldTexts]
  | cons e rest ih =>
    rw [fieldTexts, List.cons_append, List.forall_mem_cons, List.forall_mem_append,
      List.forall_mem_cons, ih, Avoids, and_assoc]

lemma avoids_ofStrings {xs : List String} :
    (ofStrings xs).Avoids n ↔ ∀ x ∈ xs, n.Avoids x.toList := by
  rw [ofStrings, avoids_arr, List.forall_mem_map]
  simp only [avoids_str]

lemma Avoids.get? (h : (obj fields).Avoids n) (hv : fields.get? key = some v) : v.Avoids n :=
  (avoids_obj.1 h _ (Table.mem_of_get? hv)).2

lemma Avoids.member (h : (obj fields).Avoids n) (key : String) : (member fields key).Avoids n := by
  rw [Json.member]
  cases hv : fields.get? key with
  | none => exact avoids_null
  | some v => exact h.get? hv

lemma Avoids.orElse (hv : v.Avoids n) (hw : w.Avoids n) : (v.orElse w).Avoids n := by
  rw [Json.orElse]
  split_ifs
  · exact hv
  · exact hw

lemma Avoids.elements (h : v.Avoids n) (hitems : v.elements = .ok items) :
    ∀ item ∈ items, item.Avoids n := by
  cases v with
  | arr xs =>
    cases hitems
    exact avoids_arr.1 h
  | str s =>
    cases hitems
    rw [List.forall_mem_map]
    intro c _
    rw [avoids_str, String.toList_singleton]
    exact n.avoids_singleton c
  | obj fields =>
    cases hitems
    rw [List.forall_mem_map]
    exact fun e he => avoids_str.2 (avoids_obj.1 h e he).1
  | _ => cases hitems

end Parts

end Json

/-! Written forms. -/

section Written

variable {n : Needle} {s : String}

lemma Text.isPlain_of_figure {c : Char} (h : isFigure c = true) : isPlain c = true := by
  by_contra hc
  simp only [isPlain, Bool.and_eq_true, bne_iff_ne, not_and_or, not_not] at hc
  rcases hc with (rfl | rfl) | rfl <;> exact absurd h (by decide)

lemma avoids_of_numeric (h : ∀ c ∈ s.toList, isNumeric c = true) : n.Avoids s.toList :=
  Needle.avoids_of_notMem_slash fun hm => absurd (h _ hm) (by decide)

lemma avoids_word (h : s.toList.all isNumeric = true) : n.Avoids s.toList :=
  avoids_of_numeric (List.all_eq_true.1 h)

lemma isGap_hex {c : Char} (hc : isPlain c = true) (width k : ℕ) :
    isGap ('\\' :: c :: hexDigits width k) = true := by
  have hplain : (hexDigits width k).all isPlain = true :=
    List.all_eq_true.2 fun d hd => isPlain_of_figure (isFigure_hexDigits width k d hd)
  rw [isGap, List.all_cons, List.all_cons, hplain, hc]
  rfl

lemma avoids_marked {mark : Char} {cs : List Char} (hplain : isPlain mark = true)
    (hstop : isStop mark = true) (h : n.Avoids cs) : n.Avoids (mark :: cs ++ [mark]) := by
  have hmark : n.Leads [mark] := Needle.leads_of_plain (List.forall_mem_singleton.2 hplain)
  exact hmark _ (h.append_stop hstop (n.avoids_singleton mark))

lemma Text.Needle.Avoids.quoted (h : n.Avoids s.toList) : n.Avoids (quoted s).toList := by
  have hescape (mark c : Char) (hmark : isPlain mark = true) :
      quotedChar mark c = [c] ∨ isGap (quotedChar mark c) = true := by
    unfold quotedChar
    split_ifs with hc
    · refine .inr ?_
      simp only [Bool.or_eq_true, beq_iff_eq] at hc
      rcases hc with rfl | rfl
      · simp [isGap, hmark]
        decide
      · decide
    · exact .inr (by decide)
    · exact .inr (by decide)
    · exact .inr (by decide)
    · exact .inl rfl
    · exact .inr (isGap_hex (by decide) 2 _)
    · exact .inr (isGap_hex (by decide) 4 _)
    · exact .inr (isGap_hex (by decide) 8 _)
  have hmark : isPlain (quotedMark s.toList) = true ∧ isStop (quotedMark s.toList) = true := by
    rw [quotedMark]
    split_ifs <;> decide
  rw [Text.quoted, String.toList_ofList]
  exact avoids_marked hmark.1 hmark.2
    (h.escaped (Needle.escaped_flatMap (fun c => hescape _ c hmark.1) _))

namespace Json

lemma isGap_unitEscape (k : ℕ) : isGap (unitEscape k) = true := isGap_hex (by decide) 4 k

lemma literalChar_cases (set : Charset) (c : Char) :
    literalChar set c = [c] ∨ isGap (literalChar set c) = true := by
  unfold literalChar
  split_ifs
  · exact .inr (by decide)
  · exact .inr (by decide)
  · exact .inr (by decide)
  · exact .inr (by decide)
  · exact .inr (by decide)
  · exact .inr (by decide)
  · exact .inr (by decide)
  · exact .inr (isGap_unitEscape _)
  · rw [unitsEscape]
    split_ifs
    · exact .inr (isGap_unitEscape _)
    · refine .inr ?_
      obtain ⟨hhead, hall⟩ := Bool.and_eq_true_iff.1 (isGap_unitEscape (0xD800 + (c.toNat - 65536) / 1024))
      have hsecond := (Bool.and_eq_true_iff.1 (isGap_unitEscape (0xDC00 + (c.toNat - 65536) % 1024))).2
      rw [isGap, List.all_append, hall, hsecond]
      rfl
  · exact .inl rfl

lemma avoids_literal (set : Charset) (h : n.Avoids s.toList) : n.Avoids (literal set s).toList := by
  rw [literal, String.toList_ofList]
  exact avoids_marked (by decide) (by decide)
    (h.escaped (Needle.escaped_flatMap (literalChar_cases set) _))

lemma avoids_bracketed {opening closing : String} (hopening : isGap opening.toList = true)
    (hclosing : isGap closing.toList = true) {members : List String}
    (h : ∀ m ∈ members, n.Avoids m.toList) :
    n.Avoids (opening ++ join ", " members ++ closing).toList := by
  have hmembers : n.Avoids (join ", " members).toList := by
    rw [join, String.toList_ofList]
    exact Needle.avoids_joinWith (by decide) (List.forall_mem_map.2 h)
  have hclosed := Needle.leads_gap hopening _ (hmembers.gap hclosing Needle.avoids_nil)
  rwa [List.append_nil, ← List.append_assoc, ← String.toList_append, ← String.toList_append] at hclosed

lemma avoids_pair {t : String} (hs : n.Avoids s.toList) (ht : n.Avoids t.toList) :
    n.Avoids (s ++ ": " ++ t).toList := by
  rw [String.toList_append, String.toList_append, List.append_assoc]
  exact hs.gap (by decide) ht

mutual

lemma avoids_quoted (v : Json) (h : v.Avoids n) : n.Avoids v.quoted.toList := by
  match v with
  | null => exact avoids_word (by decide)
  | bool b => cases b <;> exact avoids_word (by decide)
  | int i =>
    rw [quoted]
    exact avoids_of_numeric (isNumeric_int i)
  | float x =>
    rw [quoted]
    exact avoids_of_numeric (isNumeric_plain x)
  | str s => exact (avoids_str.1 h).quoted
  | arr items => exact avoids_bracketed (by decide) (by decide) (avoids_quotedItems items h)
  | obj fields => exact avoids_bracketed (by decide) (by decide) (avoids_quotedFields fields h)

lemma avoids_quotedItems (items : List Json) (h : (arr items).Avoids n) :
    ∀ m ∈ quotedItems items, n.Avoids m.toList := by
  match items with
  | [] => exact fun _ h => by cases h
  | v :: rest =>
    obtain ⟨hv, hrest⟩ := List.forall_mem_cons.1 (avoids_arr.1 h)
    exact List.forall_mem_cons.2 ⟨avoids_quoted v hv, avoids_quotedItems rest (avoids_arr.2 hrest)⟩

lemma avoids_quotedFields (fields : List (String × Json)) (h : (obj fields).Avoids n) :
    ∀ m ∈ quotedFields fields, n.Avoids m.toList := by
  match fields with
  | [] => exact fun _ h => by cases h
  | (k, v) :: rest =>
    obtain ⟨⟨hk, hv⟩, hrest⟩ := List.forall_mem_cons.1 (avoids_obj.1 h)
    exact List.forall_mem_cons.2 ⟨avoids_pair hk.quoted (avoids_quoted v hv),
      avoids_quotedFields rest (avoids_obj.2 hrest)⟩

end

lemma Avoids.display {v : Json} (h : v.Avoids n) : n.Avoids v.display.toList := by
  cases v with
  | str s => exact avoids_str.1 h
  | _ => exact avoids_quoted _ h

mutual

lemma avoids_compact (set : Charset) (v : Json) (h : v.Avoids n) :
    n.Avoids (v.compact set).toList := by
  match v with
  | null => exact avoids_word (by decide : "null".toList.all isNumeric = true)
  | bool b =>
    cases b with
    | true => exact avoids_word (by decide : "true".toList.all isNumeric = true)
    | false => exact avoids_word (by decide : "false".toList.all isNumeric = true)
  | int i =>
    rw [compact]
    exact avoids_of_numeric (isNumeric_int i)
  | float x =>
    rw [compact]
    exact avoids_of_numeric (isNumeric_source x)
  | str s => exact avoids_literal set (avoids_str.1 h)
  | arr items => exact avoids_bracketed (by decide) (by decide) (avoids_compactItems set items h)
  | obj fields =>
    exact avoids_bracketed (by decide) (by decide) (avoids_compactFields set fields h)

lemma avoids_compactItems (set : Charset) (items : List Json) (h : (arr items).Avoids n) :
    ∀ m ∈ compactItems set items, n.Avoids m.toList := by
  match items with
  | [] => exact fun _ h => by cases h
  | v :: rest =>
    obtain ⟨hv, hrest⟩ := List.forall_mem_cons.1 (avoids_arr.1 h)
    exact List.forall_mem_cons.2
      ⟨avoids_compact set v hv, avoids_compactItems set rest (avoids_arr.2 hrest)⟩

lemma avoids_compactFields (set : Charset) (fields : List (String × Json))
    (h : (obj fields).Avoids n) : ∀ m ∈ compactFields set fields, n.Avoids m.toList := by
  match fields with
  | [] => exact fun _ h => by cases h
  | (k, v) :: rest =>
    obtain ⟨⟨hk, hv⟩, hrest⟩ := List.forall_mem_cons.1 (avoids_obj.1 h)
    exact List.forall_mem_cons.2 ⟨avoids_pair (avoids_literal set hk) (avoids_compact set v hv),
      avoids_compactFields set rest (avoids_obj.2 hrest)⟩

end

end Json

end Written

end ViewWriter
