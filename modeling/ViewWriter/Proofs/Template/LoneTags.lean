import Mathlib.Data.Finset.Lattice.Basic
import Mathlib.Order.Interval.Finset.Nat
import ViewWriter.Proofs.Template.Scanning

/-! The trimmed tokens miss the lines of the lone block tags and nothing else of the source. -/

namespace ViewWriter.Template

open ViewWriter.Text

/-- The positions that a tag after `before` takes with it. -/
def takenBy (before : List Char) (t : Token) (after : List Char) : Finset ℕ :=
  if isLone before t after then
    Finset.Ico (before.length - (lineBehind before).length) before.length ∪
      Finset.Ico (before.length + t.raw.toList.length)
        (before.length + t.raw.toList.length + (lineTaken after).length)
  else ∅

/-- The positions of a source that its lone tags take with them, when `before` was read. -/
def taken (before : List Char) : List Token → Finset ℕ
  | [] => ∅
  | t :: ts => takenBy before t (raws ts) ∪ taken (before ++ t.raw.toList) ts

/-- The characters of a text from position `n` on that are not gone. -/
def kept (gone : Finset ℕ) (n : ℕ) : List Char → List Char
  | [] => []
  | c :: cs => if n ∈ gone then kept gone (n + 1) cs else c :: kept gone (n + 1) cs

/-- The tokens with what is not gone of their texts, which are left out when nothing is left. -/
def thinned (gone : Finset ℕ) (n : ℕ) : List Token → List Token
  | [] => []
  | .text value raw :: ts =>
    let cs := kept gone n value.toList
    let later := thinned gone (n + raw.toList.length) ts
    if cs.isEmpty then later else .text (String.ofList cs) raw :: later
  | t :: ts => t :: thinned gone (n + t.raw.toList.length) ts

lemma thinned_tag (gone : Finset ℕ) (n : ℕ) (t : Tag) (raw : String) (ts : List Token) :
    thinned gone n (.tag t raw :: ts) =
      .tag t raw :: thinned gone (n + raw.toList.length) ts := rfl

/-! The positions that are taken. -/

lemma mem_taken {i : ℕ} {before : List Char} {ts : List Token} :
    i ∈ taken before ts ↔ ∃ pre t post, ts = pre ++ t :: post ∧
      i ∈ takenBy (before ++ raws pre) t (raws post) := by
  induction ts generalizing before with
  | nil => simp [taken]
  | cons t ts ih =>
    rw [taken, Finset.mem_union, ih]
    constructor
    · rintro (h | ⟨pre, u, post, rfl, h⟩)
      · exact ⟨[], t, ts, rfl, by simpa using h⟩
      · exact ⟨t :: pre, u, post, rfl, by simpa using h⟩
    · rintro ⟨pre, u, post, hts, h⟩
      cases pre with
      | nil =>
        obtain ⟨rfl, rfl⟩ := List.cons.inj hts
        exact .inl (by simpa using h)
      | cons v pre =>
        obtain ⟨rfl, rfl⟩ := List.cons.inj hts
        exact .inr ⟨pre, u, post, rfl, by simpa using h⟩

lemma split_unique {pre pre' post post' : List Token} {t u : Token} {i : ℕ}
    (h : pre ++ t :: post = pre' ++ u :: post')
    (ht : (raws pre).length ≤ i ∧ i < (raws pre).length + t.raw.toList.length)
    (hu : (raws pre').length ≤ i ∧ i < (raws pre').length + u.raw.toList.length) :
    pre = pre' ∧ t = u ∧ post = post' := by
  induction pre generalizing pre' i with
  | nil =>
    cases pre' with
    | nil => exact ⟨rfl, List.cons.inj h⟩
    | cons v pre' =>
      obtain ⟨rfl, -⟩ := List.cons.inj h
      simp only [raws_nil, raws_cons, List.length_append, List.length_nil] at ht hu
      omega
  | cons v pre ih =>
    cases pre' with
    | nil =>
      obtain ⟨rfl, -⟩ := List.cons.inj h
      simp only [raws_nil, raws_cons, List.length_append, List.length_nil] at ht hu
      omega
    | cons w pre' =>
      obtain ⟨rfl, hrest⟩ := List.cons.inj h
      simp only [raws_cons, List.length_append] at ht hu
      obtain ⟨rfl, rfl, rfl⟩ := ih (i := i - v.raw.toList.length) hrest (by omega) (by omega)
      exact ⟨rfl, rfl, rfl⟩

section Neighbours

variable {before after : List Token} {t x : Token} {i : ℕ}

lemma lineTaken_raws_cons (h : Scanned (x :: after))
    (hall : (lineAhead (raws (x :: after))).all fun c => isMargin c || c == '\r') :
    lineTaken (raws (x :: after)) = lineTaken x.raw.toList :=
  fences_ahead.lineTaken_eq h.chain hall

lemma lineBehind_raws_concat (h : Scanned (before ++ [x]))
    (hall : (lineBehind (raws (before ++ [x]))).all isMargin) :
    lineBehind (raws (before ++ [x])) = lineBehind x.raw.toList := by
  rw [lineBehind, reverse_raws, List.reverse_concat] at hall ⊢
  have hr := h.reverse
  rw [List.reverse_concat] at hr
  exact fences_behind.lineAhead_eq hr.chain hall

lemma mem_takenBy (h : Scanned (before ++ t :: after)) :
    i ∈ takenBy (raws before) t (raws after) ↔ isLone (raws before) t (raws after) ∧
      ((∃ pre x, before = pre ++ [x] ∧
          (raws before).length ≤ i + (lineBehind x.raw.toList).length ∧ i < (raws before).length) ∨
        ∃ x post, after = x :: post ∧ (raws before).length + t.raw.toList.length ≤ i ∧
          i < (raws before).length + t.raw.toList.length + (lineTaken x.raw.toList).length) := by
  rw [takenBy]
  by_cases hlone : isLone (raws before) t (raws after)
  swap
  · simp [hlone]
  have hmargins := hlone
  rw [isLone, Bool.and_eq_true, Bool.and_eq_true] at hmargins
  obtain ⟨⟨-, hbehind⟩, hahead⟩ := hmargins
  rw [if_pos hlone, Finset.mem_union, Finset.mem_Ico, Finset.mem_Ico]
  simp only [hlone, true_and]
  refine or_congr ?_ ?_
  · rcases before.eq_nil_or_concat with rfl | ⟨pre, x, rfl⟩
    · simp
    · rw [List.concat_eq_append] at *
      rw [lineBehind_raws_concat (by simpa using h.left.reverse) hbehind]
      constructor
      · rintro ⟨hlow, hhigh⟩
        exact ⟨pre, x, rfl, by omega, hhigh⟩
      · rintro ⟨pre', x', heq, hlow, hhigh⟩
        obtain ⟨rfl, rfl⟩ := List.append_singleton_inj.1 heq
        exact ⟨by omega, hhigh⟩
  · cases after with
    | nil =>
      have : lineTaken (raws []) = [] := rfl
      simp only [this, List.length_nil, reduceCtorEq, false_and, exists_false, iff_false]
      omega
    | cons x post =>
      rw [lineTaken_raws_cons h.right.tail hahead]
      constructor
      · rintro ⟨hlow, hhigh⟩
        exact ⟨x, post, rfl, hlow, hhigh⟩
      · rintro ⟨x', post', heq, hlow, hhigh⟩
        obtain ⟨rfl, rfl⟩ := List.cons.inj heq
        exact ⟨hlow, hhigh⟩

/-- A position in a token is taken by the tag before it or by the tag after it. -/
lemma mem_taken_iff (h : Scanned (before ++ x :: after)) {k : ℕ} (hk : k < x.raw.toList.length) :
    (raws before).length + k ∈ taken [] (before ++ x :: after) ↔
      ((∃ pre t, before = pre ++ [t] ∧ isLone (raws pre) t (raws (x :: after)) ∧
          k < (lineTaken x.raw.toList).length) ∨
        ∃ t post, after = t :: post ∧ isLone (raws (before ++ [x])) t (raws post) ∧
          x.raw.toList.length ≤ k + (lineBehind x.raw.toList).length) := by
  rw [mem_taken]
  simp only [List.nil_append]
  constructor
  · rintro ⟨pre, t, post, hsplit, hmem⟩
    rw [mem_takenBy (hsplit ▸ h)] at hmem
    obtain ⟨hlone, ⟨pre', y, rfl, hlow, hhigh⟩ | ⟨y, post', rfl, hlow, hhigh⟩⟩ := hmem
    · have hy := lineBehind_length_le y.raw.toList
      rw [List.append_assoc, List.singleton_append] at hsplit
      rw [length_raws_concat] at hlow hhigh
      obtain ⟨rfl, rfl, rfl⟩ := split_unique (i := (raws before).length + k) hsplit
        ⟨by omega, by omega⟩ ⟨by omega, by omega⟩
      exact .inr ⟨t, post, rfl, hlone, by omega⟩
    · have hy := lineTaken_length_le y.raw.toList
      have hlength := length_raws_concat pre t
      have hsplit' : before ++ x :: after = (pre ++ [t]) ++ y :: post' := by simpa using hsplit
      obtain ⟨rfl, rfl, rfl⟩ := split_unique (i := (raws before).length + k) hsplit'
        ⟨by omega, by omega⟩ ⟨by omega, by omega⟩
      exact .inl ⟨pre, t, rfl, hlone, by omega⟩
  · rintro (⟨pre, t, rfl, hlone, hlt⟩ | ⟨t, post, rfl, hlone, hle⟩)
    · have hlength := length_raws_concat pre t
      refine ⟨pre, t, x :: after, by simp, ?_⟩
      rw [mem_takenBy (by simpa using h)]
      exact ⟨hlone, .inr ⟨x, after, rfl, by omega, by omega⟩⟩
    · have hlength := length_raws_concat before x
      refine ⟨before ++ [x], t, post, by simp, ?_⟩
      rw [mem_takenBy (by simpa using h)]
      exact ⟨hlone, .inl ⟨before, x, rfl, by omega, by omega⟩⟩

end Neighbours

/-! What is kept of a token. -/

section Kept

variable {gone : Finset ℕ} {n : ℕ} {cs : List Char}

lemma kept_append (gone : Finset ℕ) (n : ℕ) (cs ds : List Char) :
    kept gone n (cs ++ ds) = kept gone n cs ++ kept gone (n + cs.length) ds := by
  induction cs generalizing n with
  | nil => rfl
  | cons c cs ih =>
    have hn : n + 1 + cs.length = n + (c :: cs).length := by rw [List.length_cons]; omega
    rw [List.cons_append, kept, kept, ih, hn]
    by_cases h : n ∈ gone <;> simp [h]

lemma kept_eq_self (h : ∀ k < cs.length, n + k ∉ gone) : kept gone n cs = cs := by
  induction cs generalizing n with
  | nil => rfl
  | cons c cs ih =>
    have hn : n ∉ gone := h 0 (by simp)
    rw [kept, if_neg hn, ih]
    intro k hk
    rw [add_assoc, add_comm 1 k]
    exact h (k + 1) (by simpa using hk)

lemma kept_eq_nil (h : ∀ k < cs.length, n + k ∈ gone) : kept gone n cs = [] := by
  induction cs generalizing n with
  | nil => rfl
  | cons c cs ih =>
    have hn : n ∈ gone := h 0 (by simp)
    rw [kept, if_pos hn, ih]
    intro k hk
    rw [add_assoc, add_comm 1 k]
    exact h (k + 1) (by simpa using hk)

lemma kept_eq_uptoLastBreak {below : Bool}
    (h : ∀ k < cs.length, n + k ∈ gone ↔ below ∧ cs.length ≤ k + (lineBehind cs).length) :
    kept gone n cs = if below then uptoLastBreak cs else cs := by
  cases below with
  | false => exact kept_eq_self fun k hk hmem => by simpa using (h k hk).1 hmem
  | true =>
    have hcs := uptoLastBreak_append_lineBehind cs
    have hlength := congrArg List.length hcs
    rw [List.length_append, List.length_reverse] at hlength
    have hfront : kept gone n (uptoLastBreak cs) = uptoLastBreak cs := by
      refine kept_eq_self fun k hk hmem => ?_
      have := ((h k (by omega)).1 hmem).2
      omega
    have hback : kept gone (n + (uptoLastBreak cs).length) (lineBehind cs).reverse = [] := by
      refine kept_eq_nil fun k hk => ?_
      rw [List.length_reverse] at hk
      rw [add_assoc]
      exact (h _ (by omega)).2 ⟨rfl, by omega⟩
    have hkept := kept_append gone n (uptoLastBreak cs) (lineBehind cs).reverse
    rwa [hcs, hfront, hback, List.append_nil] at hkept

/-- A tag above takes the first line of a text, and a tag below its last one. -/
lemma kept_eq {above below : Bool}
    (h : ∀ k < cs.length, n + k ∈ gone ↔ (above ∧ k < (lineTaken cs).length) ∨
      (below ∧ cs.length ≤ k + (lineBehind cs).length)) :
    kept gone n cs =
      (let ds := if above then afterFirstBreak cs else cs
       if below then uptoLastBreak ds else ds) := by
  cases above with
  | false => exact kept_eq_uptoLastBreak fun k hk => by simpa using h k hk
  | true =>
    have hcs := lineTaken_append_afterFirstBreak cs
    have hlength := congrArg List.length hcs
    rw [List.length_append] at hlength
    have hfront : kept gone n (lineTaken cs) = [] :=
      kept_eq_nil fun k hk => (h k (by omega)).2 (.inl ⟨rfl, hk⟩)
    have hback : kept gone (n + (lineTaken cs).length) (afterFirstBreak cs) =
        if below then uptoLastBreak (afterFirstBreak cs) else afterFirstBreak cs := by
      refine kept_eq_uptoLastBreak fun k hk => ?_
      have hne : afterFirstBreak cs ≠ [] := List.ne_nil_of_length_pos (by omega)
      rw [add_assoc, h _ (by omega), lineBehind_afterFirstBreak hne]
      constructor
      · rintro (⟨-, hlt⟩ | ⟨hbelow, hle⟩)
        · omega
        · exact ⟨hbelow, by omega⟩
      · rintro ⟨hbelow, hle⟩
        exact .inr ⟨hbelow, by omega⟩
    have hkept := kept_append gone n (lineTaken cs) (afterFirstBreak cs)
    rwa [hcs, hfront, hback, List.nil_append] at hkept

end Kept

section Trimming

variable {before after : List Token} {x : Token}

lemma isAlone_before (h : Scanned (before ++ x :: after)) :
    isAlone before.reverse (before.reverse.drop 1) (x :: after) = true ↔
      ∃ pre t, before = pre ++ [t] ∧ isLone (raws pre) t (raws (x :: after)) := by
  rcases before.eq_nil_or_concat with rfl | ⟨pre, t, rfl⟩
  · simp [isAlone]
  · rw [List.concat_eq_append] at *
    rw [List.reverse_concat, List.drop_succ_cons, List.drop_zero,
      isAlone_eq (by simpa using h) pre.reverse]
    constructor
    · exact fun hlone => ⟨pre, t, rfl, hlone⟩
    · rintro ⟨pre', t', heq, hlone⟩
      obtain ⟨rfl, rfl⟩ := List.append_singleton_inj.1 heq
      exact hlone

lemma isAlone_after (h : Scanned (before ++ x :: after)) :
    isAlone after (x :: before.reverse) (after.drop 1) = true ↔
      ∃ t post, after = t :: post ∧ isLone (raws (before ++ [x])) t (raws post) := by
  cases after with
  | nil => simp [isAlone]
  | cons t post =>
    rw [← List.reverse_concat, List.drop_succ_cons, List.drop_zero,
      isAlone_eq (by simpa using h) post]
    constructor
    · exact fun hlone => ⟨t, post, rfl, hlone⟩
    · rintro ⟨t', post', heq, hlone⟩
      obtain ⟨rfl, rfl⟩ := List.cons.inj heq
      exact hlone

lemma kept_token (h : Scanned (before ++ x :: after)) :
    kept (taken [] (before ++ x :: after)) (raws before).length x.raw.toList =
      (let ds := if isAlone before.reverse (before.reverse.drop 1) (x :: after) then
          afterFirstBreak x.raw.toList else x.raw.toList
       if isAlone after (x :: before.reverse) (after.drop 1) then uptoLastBreak ds else ds) := by
  refine kept_eq fun k hk => ?_
  rw [mem_taken_iff h hk, isAlone_before h, isAlone_after h]
  constructor
  · rintro (⟨pre, t, hbefore, hlone, hlt⟩ | ⟨t, post, hafter, hlone, hle⟩)
    · exact .inl ⟨⟨pre, t, hbefore, hlone⟩, hlt⟩
    · exact .inr ⟨⟨t, post, hafter, hlone⟩, hle⟩
  · rintro (⟨⟨pre, t, hbefore, hlone⟩, hlt⟩ | ⟨⟨t, post, hafter, hlone⟩, hle⟩)
    · exact .inl ⟨pre, t, hbefore, hlone, hlt⟩
    · exact .inr ⟨t, post, hafter, hlone, hle⟩

lemma kept_tag {t : Tag} {raw : String} (h : Scanned (before ++ .tag t raw :: after)) :
    kept (taken [] (before ++ .tag t raw :: after)) (raws before).length raw.toList =
      raw.toList := by
  have habove : isAlone before.reverse (before.reverse.drop 1) (.tag t raw :: after) = false := by
    rw [isAlone.eq_def]
    split <;> simp [endsLine]
  have hbelow : isAlone after (.tag t raw :: before.reverse) (after.drop 1) = false := by
    rw [isAlone.eq_def]
    split <;> simp [startsLine]
  have hkept := kept_token h
  rwa [habove, hbelow] at hkept

lemma trimLines_eq (h : Scanned (before ++ after)) :
    trimLines before.reverse after =
      thinned (taken [] (before ++ after)) (raws before).length after := by
  induction after generalizing before with
  | nil => rfl
  | cons x after ih =>
    have hsplit : before ++ x :: after = (before ++ [x]) ++ after := by simp
    have ih := ih (hsplit ▸ h)
    rw [List.reverse_concat, ← hsplit, length_raws_concat] at ih
    cases x with
    | text value raw =>
      have hvalue : value.toList = raw.toList := h.shown (.text value raw) (by simp)
      have hkept := kept_token h
      rw [trimLines, thinned, hvalue, ih]
      rw [Token.raw] at hkept ⊢
      rw [hkept]
    | tag t raw =>
      rw [trimLines, thinned_tag, ih]
      · rfl
      · simp

lemma shown_thinned (h : Scanned (before ++ after)) :
    (thinned (taken [] (before ++ after)) (raws before).length after).flatMap Token.shown =
      kept (taken [] (before ++ after)) (raws before).length (raws after) := by
  induction after generalizing before with
  | nil => rfl
  | cons x after ih =>
    have hsplit : before ++ x :: after = (before ++ [x]) ++ after := by simp
    have ih := ih (hsplit ▸ h)
    rw [← hsplit, length_raws_concat] at ih
    rw [raws_cons, kept_append, ← ih]
    cases x with
    | text value raw =>
      have hvalue : value.toList = raw.toList := h.shown (.text value raw) (by simp)
      rw [thinned, hvalue, Token.raw]
      by_cases hempty : (kept (taken [] (before ++ .text value raw :: after)) (raws before).length
          raw.toList).isEmpty
      · simp [List.isEmpty_iff.1 hempty]
      · simp [hempty, Token.shown]
    | tag t raw =>
      rw [thinned_tag, List.flatMap_cons, Token.raw, kept_tag h]
      rfl

end Trimming

lemma text_notMem_thinned (gone : Finset ℕ) (n : ℕ) (ts : List Token) (raw : String) :
    .text "" raw ∉ thinned gone n ts := by
  fun_induction thinned gone n ts with
  | case1 => simp
  | case2 n value raw' ts cs later hempty ih => exact ih
  | case3 n value raw' ts cs later hempty ih =>
    rw [List.mem_cons, not_or]
    refine ⟨fun h => ?_, ih⟩
    obtain ⟨hcs, -⟩ := Token.text.inj h
    exact hempty (by simpa using hcs)
  | case4 n t ts ht ih =>
    rw [List.mem_cons, not_or]
    exact ⟨fun h => ht "" raw h.symm, ih⟩

/-- A source is split into its tokens, of which those are left that the source shows without the
lines of its lone tags. -/
theorem tokenize_eq_without_lone_lines (source : String) :
    let ts := scan [] source.toList
    let gone := taken [] ts
    raws ts = source.toList ∧ tokenize source = thinned gone 0 ts ∧
      (tokenize source).flatMap Token.shown = kept gone 0 source.toList ∧
      ∀ raw, .text "" raw ∉ tokenize source := by
  intro ts gone
  have hraws : raws ts = source.toList := raws_scan [] source.toList
  have hscanned : Scanned ([] ++ ts) := scanned_scan [] source.toList
  have htokens : tokenize source = thinned gone 0 ts := trimLines_eq hscanned
  refine ⟨hraws, htokens, ?_, ?_⟩
  · rw [htokens, ← hraws]
    exact shown_thinned hscanned
  · rw [htokens]
    exact text_notMem_thinned gone 0 ts

end ViewWriter.Template
