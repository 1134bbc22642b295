import Mathlib.Data.List.DropRight
import Mathlib.Data.List.TakeWhile
import Mathlib.Tactic.Lemma
import Mathlib.Tactic.SplitIfs
import ViewWriter.Text.Lines

/-! Pieces of texts: where a text is cut, and what cutting gives back of texts put together. -/

namespace ViewWriter.Text

section Together

variable {α : Type*} {a : α} {cs ds : List α} {p : α → Bool}

/-! Rewriting with `List.mem_append` or `List.all_append` opens the literals among the texts to find
an append in them; these do not. -/

lemma notMem_append (hc : a ∉ cs) (hd : a ∉ ds) : a ∉ cs ++ ds :=
  fun h => (List.mem_append.1 h).elim hc hd

lemma all_append (hc : cs.all p = true) (hd : ds.all p = true) : (cs ++ ds).all p = true :=
  List.all_append.trans (Bool.and_eq_true_iff.2 ⟨hc, hd⟩)

end Together

section Stops

variable {α : Type*} {p : α → Bool} {c : α} {cs ds : List α}

lemma takeWhile_stop (h : ∀ a ∈ cs, p a) (hc : p c = false) :
    (cs ++ c :: ds).takeWhile p = cs := by
  rw [List.takeWhile_append_of_pos h, List.takeWhile_cons_of_neg (by simp [hc]), List.append_nil]

lemma dropWhile_stop (h : ∀ a ∈ cs, p a) (hc : p c = false) :
    (cs ++ c :: ds).dropWhile p = c :: ds := by
  rw [List.dropWhile_append_of_pos h, List.dropWhile_cons_of_neg (by simp [hc])]

lemma takeWhile_append_stop (hc : p c = false) (cs ds : List α) :
    (cs ++ c :: ds).takeWhile p = cs.takeWhile p := by
  induction cs with
  | nil => simp [hc]
  | cons a rest ih => cases ha : p a <;> simp [ha, ih]

lemma dropWhile_append_stop (hc : p c = false) (cs ds : List α) :
    (cs ++ c :: ds).dropWhile p = cs.dropWhile p ++ c :: ds := by
  induction cs with
  | nil => simp [hc]
  | cons a rest ih => cases ha : p a <;> simp [ha, ih]

lemma drop_takeWhile (cs : List α) : cs.drop (cs.takeWhile p).length = cs.dropWhile p := by
  have h : (cs.takeWhile p ++ cs.dropWhile p).drop (cs.takeWhile p).length = cs.dropWhile p :=
    List.drop_left
  rwa [List.takeWhile_append_dropWhile] at h

/-- A text either stands inside a class or has a first character outside it. -/
lemma stop_cases (p : α → Bool) (cs : List α) :
    (∀ a ∈ cs, p a) ∨ ∃ before c after, cs = before ++ c :: after ∧ (∀ a ∈ before, p a) ∧
      p c = false := by
  cases h : cs.dropWhile p with
  | nil => exact .inl (List.dropWhile_eq_nil_iff.1 h)
  | cons c after =>
    refine .inr ⟨cs.takeWhile p, c, after, ?_, fun a ha => List.mem_takeWhile_imp ha, ?_⟩
    · rw [← h, List.takeWhile_append_dropWhile]
    · have hc := List.dropWhile_get_zero_not p cs (by rw [h]; simp)
      simpa [h] using hc

end Stops

section Cut

variable {sep : Char} {cs ds : List Char}

lemma cut_append (h : sep ∉ cs) : cut sep (cs ++ sep :: ds) = (cs, some ds) := by
  have hcs : ∀ a ∈ cs, (a != sep) = true := fun a ha => by
    simpa using fun hs : a = sep => h (hs ▸ ha)
  rw [cut, dropWhile_stop hcs (by simp), takeWhile_stop hcs (by simp)]

lemma cut_of_notMem (h : sep ∉ cs) : cut sep cs = (cs, none) := by
  have hcs : ∀ a ∈ cs, (a != sep) = true := fun a ha => by
    simpa using fun hs : a = sep => h (hs ▸ ha)
  rw [cut, List.dropWhile_eq_nil_iff.2 hcs]

lemma of_cut (h : cut sep cs = (ds, some es)) : cs = ds ++ sep :: es ∧ sep ∉ ds := by
  rcases stop_cases (· != sep) cs with hall | ⟨before, c, after, rfl, hb, hc⟩
  · rw [cut_of_notMem fun hs => by simpa using hall sep hs] at h
    simp at h
  · obtain rfl : c = sep := by simpa using hc
    have hnot : c ∉ before := fun hs => by simpa using hb c hs
    rw [cut_append hnot] at h
    simp only [Prod.mk.injEq, Option.some.injEq] at h
    obtain ⟨rfl, rfl⟩ := h
    exact ⟨rfl, hnot⟩

lemma splitOn_append (h : sep ∉ cs) (ds : List Char) :
    splitOn sep (cs ++ sep :: ds) = cs :: splitOn sep ds := by
  induction cs with
  | nil => simp [splitOn]
  | cons c rest ih =>
    simp only [List.mem_cons, not_or] at h
    rw [List.cons_append, splitOn, if_neg (Ne.symm h.1), ih h.2]

lemma splitOn_of_notMem (h : sep ∉ cs) : splitOn sep cs = [cs] := by
  induction cs with
  | nil => rfl
  | cons c rest ih =>
    simp only [List.mem_cons, not_or] at h
    rw [splitOn, if_neg (Ne.symm h.1), ih h.2]

lemma notMem_of_splitOn {piece : List Char} (h : piece ∈ splitOn sep cs) : sep ∉ piece := by
  induction cs generalizing piece with
  | nil => simp_all [splitOn]
  | cons c rest ih =>
    rw [splitOn] at h
    split_ifs at h with hc
    · rcases List.mem_cons.1 h with rfl | h
      · simp
      · exact ih h
    · split at h
      · simp_all [Ne.symm hc]
      · rename_i first pieces hs
        rcases List.mem_cons.1 h with rfl | h
        · simpa [Ne.symm hc] using ih (hs ▸ List.mem_cons_self)
        · exact ih (hs ▸ List.mem_cons_of_mem _ h)

lemma splitOn_joinWith {pieces : List (List Char)} (hne : pieces ≠ [])
    (h : ∀ piece ∈ pieces, sep ∉ piece) : splitOn sep (joinWith [sep] pieces) = pieces := by
  induction pieces with
  | nil => contradiction
  | cons piece rest ih =>
    have hpiece := h piece List.mem_cons_self
    cases rest with
    | nil => simpa [joinWith] using splitOn_of_notMem hpiece
    | cons next rest =>
      have hrest := ih (by simp) fun p hp => h p (List.mem_cons_of_mem _ hp)
      simp only [joinWith, List.intercalate_cons_cons, List.append_assoc,
        List.singleton_append] at hrest ⊢
      rw [splitOn_append hpiece, hrest]

lemma infix_joinWith {sep piece : List Char} {pieces : List (List Char)} (h : piece ∈ pieces) :
    piece <:+: joinWith sep pieces := by
  induction pieces with
  | nil => simp at h
  | cons first rest ih =>
    cases rest with
    | nil =>
      rw [List.mem_singleton.1 h]
      simp [joinWith]
    | cons next rest =>
      simp only [joinWith, List.intercalate_cons_cons] at ih ⊢
      rcases List.mem_cons.1 h with rfl | h
      · exact List.infix_append_of_infix_left (List.infix_append_of_infix_left List.infix_rfl)
      · exact List.infix_append_of_infix_right (ih h)

lemma infix_of_mem_splitOn {piece : List Char} (h : piece ∈ splitOn sep cs) : piece <:+: cs := by
  rw [← joinWith_splitOn sep cs]
  exact infix_joinWith h

lemma joinWith_eq (sep first : List Char) (rest : List (List Char)) :
    joinWith sep (first :: rest) = first ++ rest.flatMap (sep ++ ·) := by
  induction rest generalizing first with
  | nil => simp [joinWith]
  | cons next rest ih =>
    rw [joinWith, intercalate_cons_ne (List.cons_ne_nil next rest), ← joinWith, ih,
      List.flatMap_cons, List.append_assoc]

lemma joinWith_nil (pieces : List (List Char)) : joinWith [] pieces = pieces.flatten := by
  cases pieces with
  | nil => rfl
  | cons piece pieces => simp [joinWith_eq, List.flatten_cons, List.flatMap_def]

lemma toList_concat (pieces : List String) :
    (concat pieces).toList = pieces.flatMap String.toList := by
  rw [concat, join, String.toList_ofList, String.toList_empty, joinWith_nil, List.flatMap_def]

lemma joinWith_append {sep : List Char} {xs ys : List (List Char)} (hx : xs ≠ []) (hy : ys ≠ []) :
    joinWith sep (xs ++ ys) = joinWith sep xs ++ sep ++ joinWith sep ys := by
  induction xs with
  | nil => contradiction
  | cons x rest ih =>
    cases rest with
    | nil => simp [joinWith, List.intercalate_cons_of_ne_nil hy]
    | cons next rest =>
      have hrest := ih (by simp)
      simp only [joinWith, List.cons_append, List.intercalate_cons_cons] at hrest ⊢
      rw [hrest]
      simp

lemma mem_joinWith {sep : List Char} {pieces : List (List Char)} {c : Char}
    (h : c ∈ joinWith sep pieces) : c ∈ sep ∨ ∃ piece ∈ pieces, c ∈ piece := by
  induction pieces with
  | nil => simp [joinWith] at h
  | cons first rest ih =>
    cases rest with
    | nil => exact .inr ⟨first, List.mem_singleton_self _, by simpa [joinWith] using h⟩
    | cons next rest =>
      simp only [joinWith, List.intercalate_cons_cons, List.mem_append] at h ih
      rcases h with (h | h) | h
      · exact .inr ⟨first, List.mem_cons_self, h⟩
      · exact .inl h
      · rcases ih h with h | ⟨piece, hp, h⟩
        · exact .inl h
        · exact .inr ⟨piece, List.mem_cons_of_mem _ hp, h⟩

lemma hasPart_iff {part cs : List Char} : hasPart part cs = true ↔ part <:+: cs := by
  induction cs with
  | nil => simp [hasPart]
  | cons c rest ih => simp [hasPart, ih, List.infix_cons_iff]

lemma stripPrefix?_append_break {part : List Char} (h : '\n' ∉ part) (cs ds : List Char) :
    stripPrefix? part (cs ++ '\n' :: ds) =
      (stripPrefix? part cs).map (· ++ '\n' :: ds) := by
  induction part generalizing cs with
  | nil => simp [stripPrefix?]
  | cons a as ih =>
    have ha : a ≠ '\n' := fun e => h (e ▸ List.mem_cons_self)
    cases cs with
    | nil => simp [stripPrefix?, ha]
    | cons c cs =>
      have has : '\n' ∉ as := fun hm => h (List.mem_cons_of_mem _ hm)
      simp only [List.cons_append, stripPrefix?, ih has]
      split <;> rfl

end Cut

section Words

variable {p : Char → Bool} {word cs ds : List Char}

lemma runsOutside_cons_of_pos {c : Char} (hc : p c = true) (cs : List Char) :
    runsOutside p (c :: cs) = runsOutside p cs := by
  rw [runsOutside.eq_def]
  simp [hc]

lemma runsOutside_append_of_all (h : ∀ a ∈ ds, p a) (cs : List Char) :
    runsOutside p (ds ++ cs) = runsOutside p cs := by
  induction ds with
  | nil => rfl
  | cons d rest ih =>
    rw [List.cons_append, runsOutside_cons_of_pos (h d List.mem_cons_self)]
    exact ih fun a ha => h a (List.mem_cons_of_mem _ ha)

lemma runsOutside_eq_nil (h : ∀ a ∈ cs, p a) : runsOutside p cs = [] := by
  have hnil := runsOutside_append_of_all h []
  rwa [List.append_nil] at hnil

lemma runsOutside_word (hne : word ≠ []) (h : ∀ a ∈ word, p a = false) :
    runsOutside p word = [word] := by
  induction word with
  | nil => contradiction
  | cons c rest ih =>
    have hc := h c List.mem_cons_self
    cases rest with
    | nil => simp [runsOutside, hc]
    | cons d rest =>
      have hd := h d (by simp)
      have hrest := ih (by simp) fun a ha => h a (List.mem_cons_of_mem _ ha)
      rw [runsOutside]
      simp [hc, hd, hrest]

lemma runsOutside_word_append (hne : word ≠ []) (h : ∀ a ∈ word, p a = false) {c : Char}
    (hc : p c = true) (cs : List Char) :
    runsOutside p (word ++ c :: cs) = word :: runsOutside p cs := by
  induction word with
  | nil => contradiction
  | cons a rest ih =>
    have ha := h a List.mem_cons_self
    cases rest with
    | nil =>
      rw [List.singleton_append, runsOutside]
      simp [ha, hc, runsOutside_cons_of_pos hc]
    | cons d rest =>
      have hd := h d (by simp)
      have hrest := ih (by simp) fun a ha => h a (List.mem_cons_of_mem _ ha)
      rw [List.cons_append] at hrest
      rw [List.cons_append, List.cons_append, runsOutside]
      simp [ha, hd, hrest]

lemma word_cases (p : Char → Bool) (cs : List Char) :
    (∀ a ∈ cs, p a) ∨ ∃ margin word rest, cs = margin ++ word ++ rest ∧ (∀ a ∈ margin, p a) ∧
      word ≠ [] ∧ (∀ a ∈ word, p a = false) ∧ ∀ a ∈ rest.head?, p a = true := by
  rcases stop_cases p cs with h | ⟨margin, c, after, rfl, hm, hc⟩
  · exact .inl h
  · rcases stop_cases (!p ·) after with h | ⟨word, d, rest, rfl, hw, hd⟩
    · refine .inr ⟨margin, c :: after, [], by simp, hm, by simp, ?_, by simp⟩
      intro a ha
      rcases List.mem_cons.1 ha with rfl | ha
      · exact hc
      · simpa using h a ha
    · refine .inr ⟨margin, c :: word, d :: rest, by simp, hm, by simp, ?_, by simpa using hd⟩
      intro a ha
      rcases List.mem_cons.1 ha with rfl | ha
      · exact hc
      · simpa using hw a ha

lemma word_induction {P : List Char → Prop} (p : Char → Bool)
    (blank : ∀ cs : List Char, (∀ a ∈ cs, p a) → P cs)
    (step : ∀ margin word rest, (∀ a ∈ margin, p a) → word ≠ [] → (∀ a ∈ word, p a = false) →
      (∀ a ∈ rest.head?, p a = true) → P rest → P (margin ++ word ++ rest)) (cs : List Char) :
    P cs := by
  rcases word_cases p cs with h | ⟨margin, word, rest, hcs, hm, hne, hw, hr⟩
  · exact blank cs h
  · exact hcs ▸ step margin word rest hm hne hw hr (word_induction p blank step rest)
  termination_by cs.length
  decreasing_by
    have hpos := List.length_pos_iff.2 hne
    rw [hcs, List.length_append, List.length_append]
    omega

lemma runsOutside_step {margin rest : List Char} (hm : ∀ a ∈ margin, p a) (hne : word ≠ [])
    (hw : ∀ a ∈ word, p a = false) (hr : ∀ a ∈ rest.head?, p a = true) :
    runsOutside p (margin ++ word ++ rest) = word :: runsOutside p rest := by
  rw [List.append_assoc, runsOutside_append_of_all hm]
  cases rest with
  | nil => rw [List.append_nil, runsOutside_word hne hw, runsOutside]
  | cons c cs =>
    have hc : p c = true := hr c rfl
    rw [runsOutside_word_append hne hw hc, runsOutside_cons_of_pos hc]

lemma mem_runsOutside {run : List Char} (h : run ∈ runsOutside p cs) :
    run ≠ [] ∧ (∀ a ∈ run, p a = false) ∧ run <:+: cs := by
  induction cs using word_induction p with
  | blank cs hall => simp [runsOutside_eq_nil hall] at h
  | step margin word rest hm hne hw hr ih =>
    rw [runsOutside_step hm hne hw hr] at h
    rcases List.mem_cons.1 h with rfl | h
    · exact ⟨hne, hw, List.infix_append _ _ _⟩
    · obtain ⟨h₁, h₂, h₃⟩ := ih h
      exact ⟨h₁, h₂, List.infix_append_of_infix_right h₃⟩

lemma runsOutside_append_stop {c : Char} (hc : p c = true) (cs ds : List Char) :
    runsOutside p (cs ++ c :: ds) = runsOutside p cs ++ runsOutside p ds := by
  induction cs using word_induction p with
  | blank cs hall =>
    rw [runsOutside_append_of_all hall, runsOutside_eq_nil hall, runsOutside_cons_of_pos hc,
      List.nil_append]
  | step margin word rest hm hne hw hr ih =>
    rw [runsOutside_step hm hne hw hr, List.cons_append, ← ih, List.append_assoc]
    refine runsOutside_step hm hne hw ?_
    cases rest with
    | nil => simpa using hc
    | cons d rest => simpa using hr

lemma runsOutside_append_end (h : ∀ a ∈ ds, p a) (cs : List Char) :
    runsOutside p (cs ++ ds) = runsOutside p cs := by
  cases ds with
  | nil => rw [List.append_nil]
  | cons d rest =>
    have hrest : runsOutside p rest = [] :=
      runsOutside_eq_nil fun a ha => h a (List.mem_cons_of_mem _ ha)
    rw [runsOutside_append_stop (h d List.mem_cons_self), hrest, List.append_nil]

lemma isBlank_space : isBlank ' ' = true := by decide

lemma fields_joinWith {words : List (List Char)}
    (h : ∀ word ∈ words, word ≠ [] ∧ ∀ a ∈ word, isBlank a = false) :
    fields (joinWith [' '] words) = words := by
  induction words with
  | nil => rfl
  | cons word rest ih =>
    obtain ⟨hne, hw⟩ := h word List.mem_cons_self
    have hrest := ih fun w hw => h w (List.mem_cons_of_mem _ hw)
    cases rest with
    | nil => simpa [joinWith, fields] using runsOutside_word hne hw
    | cons next rest =>
      simp only [joinWith, List.intercalate_cons_cons, List.append_assoc,
        List.singleton_append] at hrest ⊢
      rw [fields, runsOutside_word_append hne hw isBlank_space]
      exact congrArg (word :: ·) hrest

lemma fields_squeezed (cs : List Char) : fields (squeezed cs) = fields cs :=
  fields_joinWith fun _ hw => ⟨(mem_runsOutside hw).1, (mem_runsOutside hw).2.1⟩

lemma squeezed_squeezed (cs : List Char) : squeezed (squeezed cs) = squeezed cs := by
  rw [squeezed, fields_squeezed, squeezed]

lemma squeezed_append_end (h : ∀ a ∈ ds, isBlank a) (cs : List Char) :
    squeezed (cs ++ ds) = squeezed cs := by
  rw [squeezed, fields, runsOutside_append_end h, squeezed, fields]

lemma squeezed_space (cs : List Char) : squeezed (' ' :: cs) = squeezed cs := by
  rw [squeezed, fields, runsOutside_cons_of_pos isBlank_space, squeezed, fields]

lemma squeezed_append_space (cs : List Char) : squeezed (cs ++ [' ']) = squeezed cs :=
  squeezed_append_end (List.forall_mem_singleton.2 isBlank_space) cs

lemma squeezed_eq_nil_iff : squeezed cs = [] ↔ ∀ a ∈ cs, isBlank a := by
  constructor
  · intro h
    have hf := fields_squeezed cs
    rw [h] at hf
    rcases word_cases isBlank cs with hall | ⟨margin, word, rest, rfl, hm, hne, hw, hr⟩
    · exact hall
    · rw [fields, fields, runsOutside_step hm hne hw hr] at hf
      simp [runsOutside] at hf
  · intro h
    rw [squeezed, fields, runsOutside_eq_nil h]
    rfl

/-- Only white space is lost. -/
lemma filter_squeezed (cs : List Char) :
    (squeezed cs).filter (!isBlank ·) = cs.filter (!isBlank ·) := by
  induction cs using word_induction isBlank with
  | blank cs hall =>
    have hnil : cs.filter (!isBlank ·) = [] := List.filter_eq_nil_iff.2 (by simpa using hall)
    rw [squeezed_eq_nil_iff.2 hall, hnil]
    rfl
  | step margin word rest hm hne hw hr ih =>
    have hmargin : margin.filter (!isBlank ·) = [] :=
      List.filter_eq_nil_iff.2 (by simpa using hm)
    rw [squeezed, fields, runsOutside_step hm hne hw hr, List.filter_append, List.filter_append,
      hmargin, List.nil_append, ← ih, squeezed, fields]
    cases runsOutside isBlank rest with
    | nil => simp [joinWith]
    | cons next more => simp [joinWith, isBlank_space]

lemma head_squeezed {c : Char} (h : (squeezed cs).head? = some c) : isBlank c = false := by
  induction cs using word_induction isBlank with
  | blank cs hall => simp [squeezed_eq_nil_iff.2 hall] at h
  | step margin word rest hm hne hw hr ih =>
    rw [squeezed, fields, runsOutside_step hm hne hw hr] at h
    obtain ⟨d, word, rfl⟩ := List.exists_cons_of_ne_nil hne
    obtain rfl : d = c := by cases runsOutside isBlank rest <;> simpa [joinWith] using h
    exact hw d List.mem_cons_self

lemma mem_of_mem_squeezed {c : Char} (h : c ∈ squeezed cs) : c = ' ' ∨ c ∈ cs := by
  rcases mem_joinWith h with h | ⟨word, hw, h⟩
  · exact .inl (List.mem_singleton.1 h)
  · exact .inr ((mem_runsOutside hw).2.2.mem h)

end Words

section Trim

variable {p : Char → Bool} {cs ds : List Char}

lemma trimEnd_eq_rdropWhile (cs : List Char) : trimEnd p cs = cs.rdropWhile p := by
  induction cs using List.reverseRecOn with
  | nil => rfl
  | append_singleton cs c ih =>
    by_cases hc : p c
    · rw [trimEnd_append_of_all cs [c] (by simpa using hc), List.rdropWhile_concat_pos _ _ _ hc, ih]
    · rw [List.rdropWhile_concat_neg _ _ _ hc]
      clear ih
      induction cs with
      | nil => simp [trimEnd, hc]
      | cons d rest ih => simp [trimEnd, ih]

lemma trim_eq_self (h : ∀ a ∈ cs, p a = false) : trim p cs = cs := by
  have hstart : cs.dropWhile p = cs := List.dropWhile_eq_self_iff.2 fun hl =>
    by simp [h _ (List.getElem_mem hl)]
  rw [trim, trimStart, hstart, trimEnd_eq_rdropWhile, List.rdropWhile_eq_self_iff]
  intro hne
  simp [h _ (List.getLast_mem hne)]

lemma trim_append_of_all (h : ∀ a ∈ ds, p a) (cs : List Char) :
    trim p (ds ++ cs) = trim p cs := by
  rw [trim, trimStart, List.dropWhile_append_of_pos h, trim, trimStart]

lemma trim_append_end (h : ∀ a ∈ ds, p a) (cs : List Char) : trim p (cs ++ ds) = trim p cs := by
  rcases stop_cases p cs with hall | ⟨before, c, after, rfl, hb, hc⟩
  · rw [trim_append_of_all hall, trim, trimStart, List.dropWhile_eq_nil_iff.2 h, trim, trimStart,
      List.dropWhile_eq_nil_iff.2 hall]
  · rw [List.append_assoc, List.cons_append, trim, trimStart, dropWhile_stop hb hc,
      ← List.cons_append, trimEnd_append_of_all _ _ (List.all_eq_true.2 h), trim, trimStart,
      dropWhile_stop hb hc]

lemma exists_trim (p : Char → Bool) (cs : List Char) : ∃ margin tail,
    cs = margin ++ trim p cs ++ tail ∧ (∀ a ∈ margin, p a) ∧ ∀ a ∈ tail, p a := by
  refine ⟨cs.takeWhile p, (cs.dropWhile p).rtakeWhile p, ?_, fun a => List.mem_takeWhile_imp,
    fun a => List.mem_rtakeWhile_imp⟩
  rw [trim, trimStart, trimEnd_eq_rdropWhile, List.append_assoc, List.rdropWhile_append_rtakeWhile,
    List.takeWhile_append_dropWhile]

lemma trim_trim (cs : List Char) : trim p (trim p cs) = trim p cs := by
  obtain ⟨margin, tail, hcs, hm, ht⟩ := exists_trim p cs
  have h := congrArg (trim p) hcs
  rw [trim_append_end ht, trim_append_of_all hm] at h
  exact h.symm

lemma trim_isInfix (cs : List Char) : trim p cs <:+: cs := by
  obtain ⟨margin, tail, hcs, _⟩ := exists_trim p cs
  exact ⟨margin, tail, hcs.symm⟩

lemma filter_trim (cs : List Char) : (trim p cs).filter (!p ·) = cs.filter (!p ·) := by
  obtain ⟨margin, tail, hcs, hm, ht⟩ := exists_trim p cs
  have hmargin : margin.filter (!p ·) = [] := List.filter_eq_nil_iff.2 (by simpa using hm)
  have htail : tail.filter (!p ·) = [] := List.filter_eq_nil_iff.2 (by simpa using ht)
  have h := congrArg (List.filter (!p ·)) hcs
  rw [List.filter_append, List.filter_append, hmargin, htail, List.nil_append, List.append_nil] at h
  exact h.symm

end Trim

end ViewWriter.Text
