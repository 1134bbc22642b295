import ViewWriter.Proofs.Text.Pieces

/-! Words with one space between them, which squeezing and trimming leave as they are. -/

namespace ViewWriter.Text

structure IsWord (cs : List Char) : Prop where
  ne_nil : cs ≠ []
  no_blank : ∀ c ∈ cs, isBlank c = false

/-- Words with one space between them. -/
inductive Spaced : List Char → Prop
  | word {w : List Char} (h : IsWord w) : Spaced w
  | cons {w cs : List Char} (h : IsWord w) (hs : Spaced cs) : Spaced (w ++ ' ' :: cs)

section Words

variable {v w cs ds : List Char}

lemma IsWord.append (hv : IsWord v) (hw : IsWord w) : IsWord (v ++ w) where
  ne_nil := by simp [hv.ne_nil]
  no_blank := by
    intro c hc
    rcases List.mem_append.1 hc with hc | hc
    · exact hv.no_blank c hc
    · exact hw.no_blank c hc

lemma IsWord.fields (h : IsWord w) : fields w = [w] := runsOutside_word h.ne_nil h.no_blank

lemma IsWord.fields_cons (h : IsWord w) (cs : List Char) :
    Text.fields (w ++ ' ' :: cs) = w :: Text.fields cs :=
  runsOutside_word_append h.ne_nil h.no_blank isBlank_space cs

lemma fields_space (cs : List Char) : fields (' ' :: cs) = fields cs :=
  runsOutside_cons_of_pos isBlank_space cs

lemma Spaced.ne_nil (h : Spaced cs) : cs ≠ [] := by
  cases h with
  | word h => exact h.ne_nil
  | cons h _ => simp

lemma Spaced.fields_ne_nil (h : Spaced cs) : fields cs ≠ [] := by
  cases h with
  | word h => simp [h.fields]
  | cons h _ => simp [h.fields_cons]

lemma Spaced.squeezed (h : Spaced cs) : squeezed cs = cs := by
  induction h with
  | word h => simp [Text.squeezed, h.fields, joinWith]
  | cons h hs ih =>
    rw [Text.squeezed, joinWith] at ih ⊢
    rw [h.fields_cons, intercalate_cons_ne hs.fields_ne_nil, ih]
    rfl

lemma Spaced.append_word (h : Spaced cs) (hw : IsWord w) : Spaced (cs ++ w) := by
  induction h with
  | word h => exact .word (h.append hw)
  | cons h _ ih => simpa using Spaced.cons h ih

lemma Spaced.append (h : Spaced cs) (hd : Spaced ds) : Spaced (cs ++ ' ' :: ds) := by
  induction h with
  | word h => exact .cons h hd
  | cons h _ ih => simpa using Spaced.cons h ih

lemma Spaced.head (h : Spaced cs) : ∃ c rest, cs = c :: rest ∧ isBlank c = false := by
  have hword : ∀ {w}, IsWord w → ∃ c rest, w = c :: rest ∧ isBlank c = false := by
    intro w hw
    obtain ⟨c, rest, rfl⟩ := List.exists_cons_of_ne_nil hw.ne_nil
    exact ⟨c, rest, rfl, hw.no_blank c List.mem_cons_self⟩
  cases h with
  | word h => exact hword h
  | cons h _ =>
    obtain ⟨c, rest, rfl, hc⟩ := hword h
    exact ⟨c, _, rfl, hc⟩

lemma Spaced.last (h : Spaced cs) : ∃ before c, cs = before ++ [c] ∧ isBlank c = false := by
  induction h with
  | word h =>
    exact ⟨_, _, (List.dropLast_append_getLast h.ne_nil).symm,
      h.no_blank _ (List.getLast_mem h.ne_nil)⟩
  | @cons w _ _ _ ih =>
    obtain ⟨before, c, rfl, hc⟩ := ih
    exact ⟨w ++ ' ' :: before, c, by simp, hc⟩

lemma trim_of_ends {p : Char → Bool} {c : Char} (hc : p c = false) {before after : List Char}
    {d : Char} (hd : p d = false) (h : c :: after = before ++ [d]) :
    trim p (c :: after) = c :: after := by
  rw [trim, trimStart, List.dropWhile_cons_of_neg (by simp [hc]), trimEnd_eq_rdropWhile, h,
    List.rdropWhile_concat_neg _ _ _ (by simp [hd])]

lemma Spaced.trim (h : Spaced cs) : trim isBlank cs = cs := by
  obtain ⟨c, after, rfl, hc⟩ := h.head
  obtain ⟨before, d, hlast, hd⟩ := h.last
  exact trim_of_ends hc hd hlast

lemma spaced_joinWith {words : List (List Char)} (hne : words ≠ [])
    (h : ∀ w ∈ words, IsWord w) : Spaced (joinWith [' '] words) := by
  induction words with
  | nil => contradiction
  | cons w rest ih =>
    have hw := h w List.mem_cons_self
    cases rest with
    | nil => simpa [joinWith] using Spaced.word hw
    | cons v more =>
      have hrest := ih (List.cons_ne_nil v more) fun u hu => h u (List.mem_cons_of_mem _ hu)
      rw [joinWith, intercalate_cons_ne (List.cons_ne_nil v more)]
      exact .cons hw hrest

lemma spaced_joinWith_comma {parts : List (List Char)} (hne : parts ≠ [])
    (h : ∀ part ∈ parts, Spaced part) : Spaced (joinWith [',', ' '] parts) := by
  have hcomma : IsWord [','] := ⟨by simp, List.forall_mem_singleton.2 (by decide)⟩
  induction parts with
  | nil => contradiction
  | cons part rest ih =>
    have hpart := h part List.mem_cons_self
    cases rest with
    | nil => simpa [joinWith] using hpart
    | cons next more =>
      have hrest := ih (List.cons_ne_nil next more) fun u hu => h u (List.mem_cons_of_mem _ hu)
      rw [joinWith, intercalate_cons_ne (List.cons_ne_nil next more)]
      simpa [joinWith] using (hpart.append_word hcomma).append hrest

end Words

end ViewWriter.Text
