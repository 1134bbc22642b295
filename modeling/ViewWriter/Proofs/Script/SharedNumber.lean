import ViewWriter.Proofs.Number.Digits
import ViewWriter.Proofs.Traversal
import ViewWriter.Script.Fragment

/-! The numbers of shared blocks in a script. They stand in its lines, margins hide none, and the
next number is above all of them. -/

namespace ViewWriter.Script

open ViewWriter.Text ViewWriter.Number

/-- A word in a text: no word character stands right before it or right after it. -/
def HasWord (word cs : List Char) : Prop :=
  ∃ before after, cs = before ++ word ++ after ∧
    (∀ c ∈ before.getLast?, isWordChar c = false) ∧ ∀ c ∈ after.head?, isWordChar c = false

/-- The greatest number of a shared block in a text. -/
def greatest (cs : List Char) : Nat :=
  ((sharedNumbers none cs).map Number.valueOf).foldl max 0

/-- Whether all numbers in a text can be read and the next one can be written. -/
def Nameable (cs : List Char) : Prop :=
  (∀ digits ∈ sharedNumbers none cs, digits.length ≤ Number.maxDigits) ∧
    greatest cs + 1 < powerOfTen Number.maxDigits

section Numbers

/-- The digits of a shared block at the start of a text. -/
def numberHere (before : Option Char) (cs : List Char) : List (List Char) :=
  match stripPrefix? sharedStem cs with
  | some after =>
    let digits := after.takeWhile isDecimal
    let next := (after.drop digits.length).head?
    if (before.map isWordChar).getD false || digits.isEmpty || (next.map isWordChar).getD false
    then [] else [digits]
  | none => []

lemma sharedNumbers_cons (before : Option Char) (c : Char) (rest : List Char) :
    sharedNumbers before (c :: rest) =
      numberHere before (c :: rest) ++ sharedNumbers (some c) rest := rfl

lemma numberHere_congr {b b' : Option Char}
    (h : (b.map isWordChar).getD false = (b'.map isWordChar).getD false) (cs : List Char) :
    numberHere b cs = numberHere b' cs := by
  rw [numberHere, numberHere, h]

lemma sharedNumbers_congr {b b' : Option Char}
    (h : (b.map isWordChar).getD false = (b'.map isWordChar).getD false) (cs : List Char) :
    sharedNumbers b cs = sharedNumbers b' cs := by
  cases cs with
  | nil => rfl
  | cons c rest => rw [sharedNumbers_cons, sharedNumbers_cons, numberHere_congr h]

lemma sharedNumbers_margin {indent : List Char} (h : ∀ c ∈ indent, isMargin c)
    (cs : List Char) : sharedNumbers none (indent ++ cs) = sharedNumbers none cs := by
  induction indent with
  | nil => rfl
  | cons c rest ih =>
    have hc : c = ' ' ∨ c = '\t' := by simpa [isMargin] using h c List.mem_cons_self
    have hhere : numberHere none (c :: (rest ++ cs)) = [] := by
      rcases hc with rfl | rfl <;> rfl
    have hword : isWordChar c = false := by rcases hc with rfl | rfl <;> decide
    rw [List.cons_append, sharedNumbers_cons, hhere, List.nil_append,
      ← ih fun d hd => h d (List.mem_cons_of_mem _ hd)]
    exact sharedNumbers_congr (by simp [hword]) _

lemma numberHere_append_break (b : Option Char) (cs ds : List Char) :
    numberHere b (cs ++ '\n' :: ds) = numberHere b cs := by
  have hstem : '\n' ∉ sharedStem := by decide
  have hbreak : isDecimal '\n' = false := by decide
  have hword : isWordChar '\n' = false := by decide
  rw [numberHere, numberHere, stripPrefix?_append_break hstem]
  cases stripPrefix? sharedStem cs with
  | none => rfl
  | some after =>
    have hdigits := takeWhile_append_stop hbreak after ds
    have hlength : (after.takeWhile isDecimal).length ≤ after.length :=
      (List.takeWhile_prefix _).length_le
    simp only [Option.map_some, hdigits, List.drop_append_of_le_length hlength]
    cases after.drop (after.takeWhile isDecimal).length with
    | nil => simp [hword]
    | cons c rest => rfl

lemma sharedNumbers_append_break (b : Option Char) (cs ds : List Char) :
    sharedNumbers b (cs ++ '\n' :: ds) = sharedNumbers b cs ++ sharedNumbers none ds := by
  induction cs generalizing b with
  | nil =>
    have hhere : numberHere b ('\n' :: ds) = [] := rfl
    rw [List.nil_append, sharedNumbers_cons, hhere]
    exact sharedNumbers_congr (by decide) ds
  | cons c rest ih =>
    rw [List.cons_append, sharedNumbers_cons, sharedNumbers_cons, ih, List.append_assoc,
      ← List.cons_append, numberHere_append_break]

lemma sharedNumbers_unlines (ls : List (List Char)) :
    sharedNumbers none (unlines ls) = ls.flatMap (sharedNumbers none) := by
  induction ls with
  | nil => rfl
  | cons l rest ih =>
    cases rest with
    | nil => simp [unlines, joinWith]
    | cons m more =>
      have hjoin : unlines (l :: m :: more) = l ++ '\n' :: unlines (m :: more) :=
        intercalate_cons_ne (List.cons_ne_nil m more)
      rw [hjoin, sharedNumbers_append_break, ih]
      rfl

lemma mem_sharedNumbers_iff {cs digits : List Char} :
    digits ∈ sharedNumbers none cs ↔ ∃ l ∈ lines cs, digits ∈ sharedNumbers none l := by
  rw [← List.mem_flatMap, ← sharedNumbers_unlines, lines_unlines_lines]

lemma digits_of_sharedNumbers {b : Option Char} {cs digits : List Char}
    (h : digits ∈ sharedNumbers b cs) : digits ≠ [] ∧ ∀ c ∈ digits, isDecimal c := by
  induction cs generalizing b with
  | nil => simp [sharedNumbers] at h
  | cons c rest ih =>
    rw [sharedNumbers_cons] at h
    rcases List.mem_append.1 h with h | h
    · unfold numberHere at h
      split at h
      · simp only at h
        split_ifs at h with hd
        · simp at h
        · simp only [Bool.or_eq_true, not_or] at hd
          obtain rfl := List.mem_singleton.1 h
          exact ⟨by simpa using hd.1.2, fun c hc => List.mem_takeWhile_imp hc⟩
      · simp at h
    · exact ih h

end Numbers

section Words

lemma numberHere_of_word {b : Option Char} {digits after : List Char}
    (hb : ∀ c ∈ b, isWordChar c = false) (hd : ∀ c ∈ digits, isDecimal c) (hne : digits ≠ [])
    (ha : ∀ c ∈ after.head?, isWordChar c = false) :
    numberHere b (sharedStem ++ digits ++ after) = [digits] := by
  have hstrip : stripPrefix? sharedStem (sharedStem ++ digits ++ after) = some (digits ++ after) :=
    stripPrefix?_eq_some_iff.2 (List.append_assoc _ _ _)
  have htake : (digits ++ after).takeWhile isDecimal = digits := by
    rw [List.takeWhile_append_of_pos hd]
    cases after with
    | nil => simp
    | cons c rest =>
      have hc : isDecimal c = false :=
        Bool.eq_false_iff.2 fun hc => Bool.eq_false_iff.1 (ha c rfl) (isWordChar_of_isDecimal hc)
      simp [hc]
  have hbefore : (b.map isWordChar).getD false = false := by
    cases b with
    | none => rfl
    | some c => simp [hb c rfl]
  have hafter : (after.head?.map isWordChar).getD false = false := by
    cases after with
    | nil => rfl
    | cons c rest => simp [ha c rfl]
  rw [numberHere, hstrip]
  simp [htake, hbefore, hafter, hne]

lemma mem_sharedNumbers_of_word {b : Option Char} {before digits after : List Char}
    (hb : ∀ c ∈ before.getLast?.or b, isWordChar c = false) (hd : ∀ c ∈ digits, isDecimal c)
    (hne : digits ≠ []) (ha : ∀ c ∈ after.head?, isWordChar c = false) :
    digits ∈ sharedNumbers b (before ++ (sharedStem ++ digits ++ after)) := by
  induction before generalizing b with
  | nil =>
    have hhere := numberHere_of_word (by simpa using hb) hd hne ha
    obtain ⟨c, rest, hcs⟩ : ∃ c rest, sharedStem ++ digits ++ after = c :: rest := ⟨_, _, rfl⟩
    rw [List.nil_append, hcs, sharedNumbers_cons, ← hcs, hhere]
    exact List.mem_append_left _ (List.mem_singleton_self digits)
  | cons c rest ih =>
    rw [List.cons_append, sharedNumbers_cons]
    refine List.mem_append_right _ (ih ?_)
    rw [List.getLast?_cons] at hb
    cases hrest : rest.getLast? <;> simpa [hrest] using hb

lemma mem_sharedNumbers_of_hasWord {n : Nat} {cs : List Char} (h : HasWord (sharedName n) cs) :
    Nat.toDigits 10 n ∈ sharedNumbers none cs := by
  obtain ⟨before, after, rfl, hb, ha⟩ := h
  rw [List.append_assoc]
  exact mem_sharedNumbers_of_word (by simpa using hb) (fun c hc => Number.isDecimal_of_toDigits hc)
    Nat.toDigits_ne_nil ha

lemma le_foldl_max {ns : List ℕ} (start : ℕ) :
    start ≤ ns.foldl max start ∧ ∀ n ∈ ns, n ≤ ns.foldl max start := by
  induction ns generalizing start with
  | nil => simp
  | cons m rest ih =>
    obtain ⟨hstart, hrest⟩ := ih (max start m)
    rw [List.foldl_cons]
    refine ⟨(le_max_left start m).trans hstart, ?_⟩
    intro n hn
    rcases List.mem_cons.1 hn with rfl | hn
    · exact (le_max_right start n).trans hstart
    · exact hrest n hn

lemma toDigits_notMem {n : Nat} {cs : List Char} (h : greatest cs < n) :
    Nat.toDigits 10 n ∉ sharedNumbers none cs := by
  intro hmem
  have hle : Number.valueOf (Nat.toDigits 10 n) ≤ greatest cs :=
    (le_foldl_max 0).2 _ (List.mem_map_of_mem hmem)
  rw [Number.valueOf_toDigits] at hle
  omega

end Words

section Next

/-- The value of a number that is not too long. -/
def readNumber (digits : List Char) : Except Fault Nat :=
  match integer? (String.ofList digits) with
  | some i => .ok i.toNat
  | none => .error .content

lemma readNumber_eq {b : Option Char} {cs digits : List Char}
    (h : digits ∈ sharedNumbers b cs) :
    readNumber digits = if digits.length ≤ maxDigits then .ok (valueOf digits) else
      .error .content := by
  obtain ⟨hne, hd⟩ := digits_of_sharedNumbers h
  rw [readNumber, integer?_digits hd hne]
  rcases Nat.lt_or_ge maxDigits digits.length with hlong | hshort
  · simp [hlong, Nat.not_le.2 hlong]
  · simp [hshort, Nat.not_lt.2 hshort]

lemma nextShared_eq (cs : List Char) :
    nextShared cs = (do
      let numbers ← (sharedNumbers none cs).mapM readNumber
      let next := numbers.foldl max 0 + 1
      if powerOfTen maxDigits ≤ next then throw Fault.content
      return next) := rfl

lemma mapM_readNumber {cs : List Char}
    (h : ∀ digits ∈ sharedNumbers none cs, digits.length ≤ maxDigits) :
    (sharedNumbers none cs).mapM readNumber = .ok ((sharedNumbers none cs).map valueOf) := by
  rw [mapM_eq_ok_iff, List.forall₂_map_right_iff, List.forall₂_same]
  intro digits hmem
  rw [readNumber_eq hmem, if_pos (h digits hmem)]

lemma nextShared_of_nameable {cs : List Char} (h : Nameable cs) :
    nextShared cs = .ok (greatest cs + 1) := by
  have hnext : ¬ powerOfTen maxDigits ≤ ((sharedNumbers none cs).map valueOf).foldl max 0 + 1 :=
    Nat.not_le.2 h.2
  rw [nextShared_eq, mapM_readNumber h.1]
  simp only [bind, Except.bind]
  rw [if_neg hnext]
  rfl

lemma nextShared_of_not_nameable {cs : List Char} (h : ¬ Nameable cs) :
    nextShared cs = .error .content := by
  rw [nextShared_eq]
  by_cases hread : ∀ digits ∈ sharedNumbers none cs, digits.length ≤ maxDigits
  · have hnext : powerOfTen maxDigits ≤ ((sharedNumbers none cs).map valueOf).foldl max 0 + 1 :=
      Nat.not_lt.1 fun hlt => h ⟨hread, hlt⟩
    rw [mapM_readNumber hread]
    simp only [bind, Except.bind]
    rw [if_pos hnext]
    rfl
  · obtain ⟨digits, hmem, hlong⟩ : ∃ digits ∈ sharedNumbers none cs, ¬ digits.length ≤ maxDigits := by
      simpa using hread
    have herror : (sharedNumbers none cs).mapM readNumber = .error .content := by
      refine mapM_eq_error ?_ ⟨digits, hmem, ?_⟩
      · intro d hd e he
        rw [readNumber_eq hd] at he
        split_ifs at he
        exact (Except.error.inj he).symm
      · intro n hn
        rw [readNumber_eq hmem, if_neg hlong] at hn
        cases hn
    rw [herror]
    rfl

end Next

end ViewWriter.Script
