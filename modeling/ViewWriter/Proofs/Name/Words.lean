import Mathlib.Data.List.Chain
import ViewWriter.Proofs.Name.Camel
import ViewWriter.Proofs.Text.Pieces
import ViewWriter.Proofs.Traversal
import ViewWriter.Script.Reference

/-! Words with hyphens between them, which are read back as the same words. -/

namespace ViewWriter.Name

open ViewWriter.Text

/-- Small letters and digits. -/
structure IsTagWord (w : List Char) : Prop where
  ne_nil : w ≠ []
  tagChar : ∀ c ∈ w, Script.isTagChar c = true

variable {c : Char} {cs w rest : List Char} {ws : List (List Char)}

lemma isTagWord_of_mem_wordChars (h : w ∈ wordChars cs) : IsTagWord w := by
  refine ⟨wordChars_ne_nil h, fun c hc => ?_⟩
  obtain ⟨d, -, hd, rfl⟩ := exists_of_mem_wordChars h hc
  exact of_alphanumeric (P := fun d => Script.isTagChar (asciiLower d) = true) (by decide) hd

lemma alphanumeric_of_tagChar (h : Script.isTagChar c = true) :
    isAsciiAlphanumeric c = true ∧ isAsciiUpper c = false := by
  rw [Script.isTagChar, Bool.or_eq_true] at h
  rcases h with h | h
  · exact of_lower (P := fun c => isAsciiAlphanumeric c = true ∧ isAsciiUpper c = false) (by decide) h
  · exact of_digit (P := fun c => isAsciiAlphanumeric c = true ∧ isAsciiUpper c = false) (by decide) h

/-- No word begins at a character that is not a capital, so the one before it goes on. -/
lemma wordChars_cons_cons {d : Char} {word : List Char} (hc : isAsciiAlphanumeric c = true)
    (hd : isAsciiAlphanumeric d = true) (hlow : isAsciiUpper d = false)
    (hwords : wordChars (d :: rest) = word :: ws) :
    wordChars (c :: d :: rest) = (asciiLower c :: word) :: ws := by
  have hboundary : isBoundary c d rest.head? = false := by rw [isBoundary, hlow, Bool.false_and]
  rw [wordChars, hwords]
  simp [hc, hd, hboundary]

lemma wordChars_word (hw : IsTagWord w) (hrest : ∀ c ∈ rest.head?, isAsciiAlphanumeric c = false) :
    wordChars (w ++ rest) = w :: wordChars rest := by
  obtain ⟨hne, htag⟩ := hw
  induction w with
  | nil => exact absurd rfl hne
  | cons c w ih =>
    obtain ⟨hc, hlow⟩ := alphanumeric_of_tagChar (htag c List.mem_cons_self)
    cases w with
    | nil =>
      cases rest with
      | nil => simp [wordChars, hc, asciiLower_of_not_upper hlow]
      | cons d more =>
        have hd := hrest d rfl
        rw [List.singleton_append, wordChars]
        simp [hc, hd, asciiLower_of_not_upper hlow]
    | cons d w =>
      have htail := fun e he => htag e (List.mem_cons_of_mem c he)
      obtain ⟨hd, hsmall⟩ := alphanumeric_of_tagChar (htail d List.mem_cons_self)
      have hword := ih (List.cons_ne_nil d w) htail
      rw [List.cons_append] at hword
      rw [List.cons_append, List.cons_append, wordChars_cons_cons hc hd hsmall hword,
        asciiLower_of_not_upper hlow]

lemma wordChars_hyphens (hw : IsTagWord w) (hws : ∀ v ∈ ws, IsTagWord v) :
    wordChars (w ++ ws.flatMap ('-' :: ·)) = w :: ws := by
  induction ws generalizing w with
  | nil =>
    rw [List.flatMap_nil, wordChars_word hw (by simp)]
    rfl
  | cons v ws ih =>
    obtain ⟨hv, hws⟩ := List.forall_mem_cons.1 hws
    have hhyphen : isAsciiAlphanumeric '-' = false := by decide
    rw [List.flatMap_cons, List.cons_append, wordChars_word hw (by simpa using hhyphen),
      wordChars_skip hhyphen, ih hv hws]

lemma wordChars_joinWith (hw : IsTagWord w) (hws : ∀ v ∈ ws, IsTagWord v) :
    wordChars (joinWith ['-'] (w :: ws)) = w :: ws := by
  rw [joinWith_eq]
  exact wordChars_hyphens hw hws

lemma kebabChars_eq_iff {ds : List Char} : kebabChars cs = kebabChars ds ↔ wordChars cs = wordChars ds := by
  have hread : ∀ cs, wordChars (kebabChars cs) = wordChars cs := by
    intro cs
    have hwords : ∀ w ∈ wordChars cs, IsTagWord w := fun w => isTagWord_of_mem_wordChars
    rw [kebabChars]
    cases hcs : wordChars cs with
    | nil => rfl
    | cons w ws =>
      rw [hcs] at hwords
      exact wordChars_joinWith (hwords w List.mem_cons_self) fun v hv => hwords v (List.mem_cons_of_mem w hv)
  constructor
  · intro h
    rw [← hread cs, h, hread]
  · intro h
    rw [kebabChars, h, kebabChars]

end ViewWriter.Name

/-! Words without hyphens, which begin with a capital each. They are read back if each of them can be
told from the one before it. -/

namespace ViewWriter.Name

open ViewWriter.Text

/-- A small letter, and small letters and digits after it. -/
structure IsLetterWord (w : List Char) : Prop where
  small : ∃ c ∈ w.head?, isAsciiLower c = true
  tagWord : IsTagWord w

instance : DecidablePred IsLetterWord := fun w =>
  decidable_of_iff (w.head?.any isAsciiLower = true ∧ w ≠ [] ∧ w.all Script.isTagChar = true) <| by
    rw [Option.any_eq_true, List.all_eq_true]
    exact ⟨fun h => ⟨h.1, h.2.1, h.2.2⟩, fun h => ⟨h.small, h.tagWord.ne_nil, h.tagWord.tagChar⟩⟩

/-- Of two words in a row with capitals the second can be told from the first: capitals in a row are
one word, and only the last of them begins another, if a small letter follows it. -/
def TellsApart (w v : List Char) : Prop := w.length ≠ 1 ∨ ∃ d ∈ v[1]?, isAsciiLower d = true

instance (w v : List Char) : Decidable (TellsApart w v) :=
  decidable_of_iff (w.length ≠ 1 ∨ v[1]?.any isAsciiLower = true)
    (or_congr_right (Option.any_eq_true isAsciiLower v[1]?))

variable {a b : Char} {v w more : List Char} {ws : List (List Char)}

lemma isBoundary_of_not_upper (ha : isAsciiAlphanumeric a = true) (hlow : isAsciiUpper a = false)
    (next : Option Char) : isBoundary a b next = isAsciiUpper b := by
  have hsmall : (isAsciiLower a || isAsciiDigit a) = true := by
    rw [isAsciiAlphanumeric, isAsciiLetter, hlow, Bool.false_or] at ha
    exact ha
  rw [isBoundary, hsmall, Bool.true_or, Bool.and_true]

lemma isBoundary_of_upper (ha : isAsciiUpper a = true) (hb : isAsciiUpper b = true)
    (next : Option Char) : isBoundary a b next = next.any isAsciiLower := by
  have hnot : isAsciiLower a = false ∧ isAsciiDigit a = false :=
    of_upper (P := fun c => isAsciiLower c = false ∧ isAsciiDigit c = false) (by decide) ha
  rw [isBoundary, ha, hb, hnot.1, hnot.2]
  cases next <;> simp

/-- Letters and digits up to a capital. The capital begins a word, or else goes on with this one. -/
lemma wordChars_upTo (hne : w ≠ []) (hw : ∀ c ∈ w, isAsciiAlphanumeric c = true)
    (hlow : ∀ c ∈ w.tail, isAsciiUpper c = false) (hb : isAsciiUpper b = true) (more : List Char) :
    ∃ word words, wordChars (b :: more) = word :: words ∧ word ≠ [] ∧
      wordChars (w ++ b :: more) = if isBoundary (w.getLast hne) b more.head?
        then w.map asciiLower :: word :: words else (w.map asciiLower ++ word) :: words := by
  have hletter : isAsciiAlphanumeric b = true :=
    of_upper (P := fun c => isAsciiAlphanumeric c = true) (by decide) hb
  obtain ⟨word, words, hwords⟩ := wordChars_cons hletter more
  refine ⟨_, words, hwords, List.cons_ne_nil _ word, ?_⟩
  induction w with
  | nil => exact absurd rfl hne
  | cons c w ih =>
    have hc := hw c List.mem_cons_self
    cases w with
    | nil =>
      rw [List.singleton_append, wordChars, hwords]
      simp [hc, hletter]
    | cons d w =>
      obtain ⟨hsmall, hlow⟩ := List.forall_mem_cons.1 hlow
      have hinner := fun e he => hw e (List.mem_cons_of_mem c he)
      have hd := hinner d List.mem_cons_self
      have hrest := ih (List.cons_ne_nil d w) hinner hlow
      rw [List.cons_append] at hrest
      rw [List.getLast_cons (List.cons_ne_nil d w), List.cons_append, List.cons_append]
      split_ifs at hrest ⊢ with hboundary
      · exact wordChars_cons_cons hc hd hsmall hrest
      · exact wordChars_cons_cons hc hd hsmall hrest

lemma wordChars_whole (hne : w ≠ []) (hw : ∀ c ∈ w, isAsciiAlphanumeric c = true)
    (hlow : ∀ c ∈ w.tail, isAsciiUpper c = false) : wordChars w = [w.map asciiLower] := by
  induction w with
  | nil => exact absurd rfl hne
  | cons c w ih =>
    have hc := hw c List.mem_cons_self
    cases w with
    | nil => simp [wordChars, hc]
    | cons d w =>
      obtain ⟨hsmall, hlow⟩ := List.forall_mem_cons.1 hlow
      have hinner := fun e he => hw e (List.mem_cons_of_mem c he)
      exact wordChars_cons_cons hc (hinner d List.mem_cons_self) hsmall
        (ih (List.cons_ne_nil d w) hinner hlow)

namespace IsLetterWord

lemma eq_cons (hw : IsLetterWord w) : ∃ c rest, w = c :: rest ∧ isAsciiLower c = true ∧
    ∀ d ∈ rest, isAsciiAlphanumeric d = true ∧ isAsciiUpper d = false := by
  obtain ⟨⟨c, hc, hsmall⟩, htag⟩ := hw
  obtain ⟨rest, rfl⟩ := List.head?_eq_some_iff.1 hc
  exact ⟨c, rest, rfl, hsmall, fun d hd => alphanumeric_of_tagChar (htag.tagChar d (.tail c hd))⟩

lemma exists_capital (hw : IsLetterWord w) :
    ∃ b rest, capitalizeChars w = b :: rest ∧ isAsciiUpper b = true ∧ rest = w.tail := by
  obtain ⟨c, rest, rfl, hsmall, -⟩ := hw.eq_cons
  exact ⟨asciiUpper c, rest, rfl,
    of_lower (P := fun c => isAsciiUpper (asciiUpper c) = true) (by decide) hsmall, rfl⟩

lemma capitalizeChars_ne (hw : IsLetterWord w) : capitalizeChars w ≠ w := by
  obtain ⟨c, rest, rfl, hsmall, -⟩ := hw.eq_cons
  have hne : asciiUpper c ≠ c := of_lower (P := fun c => asciiUpper c ≠ c) (by decide) hsmall
  exact fun h => hne (List.cons.inj h).1

lemma spelled {first : List Char} (hw : IsLetterWord w) (hfirst : first = w ∨ first = capitalizeChars w) :
    first ≠ [] ∧ (∀ c ∈ first, isAsciiAlphanumeric c = true) ∧
      (∀ c ∈ first.tail, isAsciiUpper c = false) ∧ first.map asciiLower = w := by
  obtain ⟨c, rest, rfl, hsmall, hrest⟩ := hw.eq_cons
  have hc : isAsciiAlphanumeric c = true ∧ isAsciiAlphanumeric (asciiUpper c) = true ∧
      asciiLower c = c ∧ asciiLower (asciiUpper c) = c :=
    of_lower (P := fun c => isAsciiAlphanumeric c = true ∧ isAsciiAlphanumeric (asciiUpper c) = true ∧
      asciiLower c = c ∧ asciiLower (asciiUpper c) = c) (by decide) hsmall
  have hlower : rest.map asciiLower = rest := map_eq_self fun d hd =>
    asciiLower_of_not_upper (hrest d hd).2
  rcases hfirst with rfl | rfl
  · exact ⟨List.cons_ne_nil c rest, List.forall_mem_cons.2 ⟨hc.1, fun d hd => (hrest d hd).1⟩,
      fun d hd => (hrest d hd).2, by rw [List.map_cons, hlower, hc.2.2.1]⟩
  · exact ⟨List.cons_ne_nil _ rest, List.forall_mem_cons.2 ⟨hc.2.1, fun d hd => (hrest d hd).1⟩,
      fun d hd => (hrest d hd).2, by rw [capitalizeChars, List.map_cons, hlower, hc.2.2.2]⟩

/-- A capital ends the word before it unless this is a capital itself and no small letter comes next. -/
lemma isBoundary_iff {first : List Char} (hw : IsLetterWord w)
    (hfirst : first = w ∨ first = capitalizeChars w) (hne : first ≠ []) (hv : IsLetterWord v)
    (hws : ∀ u ∈ ws, IsLetterWord u) (hb : isAsciiUpper b = true) :
    isBoundary (first.getLast hne) b (v.tail ++ ws.flatMap capitalizeChars).head? = true ↔
      first = w ∨ TellsApart w v := by
  obtain ⟨-, halphanumeric, -, -⟩ := hw.spelled hfirst
  have hplain (hlast : isAsciiUpper (first.getLast hne) = false) : isBoundary (first.getLast hne) b
      (v.tail ++ ws.flatMap capitalizeChars).head? = true := by
    rw [isBoundary_of_not_upper (halphanumeric _ (List.getLast_mem hne)) hlast, hb]
  have hchange := hw.capitalizeChars_ne
  obtain ⟨c, rest, rfl, hsmall, hrest⟩ := hw.eq_cons
  rcases hfirst with rfl | rfl
  · refine iff_of_true (hplain ?_) (.inl rfl)
    have hc : isAsciiUpper c = false :=
      of_lower (P := fun c => isAsciiUpper c = false) (by decide) hsmall
    have hall : ∀ d ∈ c :: rest, isAsciiUpper d = false :=
      List.forall_mem_cons.2 ⟨hc, fun d hd => (hrest d hd).2⟩
    exact hall _ (List.getLast_mem hne)
  · cases rest with
    | nil =>
      have hcapital : isAsciiUpper (asciiUpper c) = true :=
        of_lower (P := fun c => isAsciiUpper (asciiUpper c) = true) (by decide) hsmall
      have hnext : (ws.flatMap capitalizeChars).head?.any isAsciiLower = false := by
        cases ws with
        | nil => rfl
        | cons u ws =>
          obtain ⟨d, more, hu, hd, -⟩ := (hws u List.mem_cons_self).exists_capital
          rw [List.flatMap_cons, hu]
          exact of_upper (P := fun c => isAsciiLower c = false) (by decide) hd
      rw [or_iff_right hchange, TellsApart, or_iff_right (by simp)]
      change isBoundary (asciiUpper c) b _ = true ↔ _
      rw [isBoundary_of_upper hcapital hb]
      obtain ⟨e, later, rfl, -⟩ := hv.eq_cons
      cases later with
      | nil => simp [hnext]
      | cons d later => simp
    | cons d rest =>
      refine iff_of_true (hplain ?_) (.inr (.inl (by simp)))
      have hlast := (hrest _ (List.getLast_mem (List.cons_ne_nil d rest))).2
      rwa [← List.getLast_cons (List.cons_ne_nil d rest)] at hlast

end IsLetterWord

/-- The words of a word and others with capitals. They are read back if and only if each with a capital
can be told from the one before it, which the first one with a small letter always can. -/
lemma wordChars_capitals {first : List Char} (hw : IsLetterWord w) (hws : ∀ v ∈ ws, IsLetterWord v)
    (hfirst : first = w ∨ first = capitalizeChars w) :
    wordChars (first ++ ws.flatMap capitalizeChars) = w :: ws ↔
      (first = w ∨ ∀ v ∈ ws.head?, TellsApart w v) ∧ ws.IsChain TellsApart := by
  induction ws generalizing w first with
  | nil =>
    obtain ⟨hne, halphanumeric, hlow, hlower⟩ := hw.spelled hfirst
    rw [List.flatMap_nil, List.append_nil, wordChars_whole hne halphanumeric hlow, hlower]
    simp
  | cons v ws ih =>
    obtain ⟨hv, hws⟩ := List.forall_mem_cons.1 hws
    obtain ⟨hne, halphanumeric, hlow, hlower⟩ := hw.spelled hfirst
    obtain ⟨b, rest, hcapital, hb, rfl⟩ := hv.exists_capital
    obtain ⟨word, words, hwords, hword, hsplit⟩ :=
      wordChars_upTo hne halphanumeric hlow hb (v.tail ++ ws.flatMap capitalizeChars)
    have hrest := ih hv hws (.inr rfl)
    rw [hcapital, List.cons_append, hwords] at hrest
    rw [List.flatMap_cons, hcapital, List.cons_append, hsplit, hlower]
    simp only [hw.isBoundary_iff hfirst hne hv hws hb, List.head?_cons, Option.mem_def,
      Option.some.injEq, forall_eq']
    split_ifs with happart
    · rw [List.cons.injEq, and_iff_right rfl, hrest, List.isChain_cons, and_iff_right happart,
        or_iff_right (hcapital ▸ hv.capitalizeChars_ne)]
    · refine iff_of_false (fun h => hword ?_) fun h => happart h.1
      exact List.append_right_eq_self.1 (List.cons.inj h).1

end ViewWriter.Name
