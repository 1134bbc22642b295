import ViewWriter.Proofs.Script.StaticBlock

/-! Copies of a static block replaced by lines that name it. What is no part of a block stays where
it is. -/

namespace ViewWriter.Script

open ViewWriter.Text

/-- The line that names a shared block in the place of a copy. -/
def useLine (name indent : List Char) : List Char := indent ++ '<' :: name ++ " />".toList

/-- A number of copies of a block are replaced by lines that name it. -/
inductive Replaced (name : List Char) (body : List (List Char)) :
    ℕ → List (List Char) → List (List Char) → Prop
  | nil : Replaced name body 0 [] []
  | keep (l : List Char) {k xs ys} (h : Replaced name body k xs ys) :
      Replaced name body k (l :: xs) (l :: ys)
  | copy {indent block k xs ys} (hcopy : IsCopy indent body block) (h : Replaced name body k xs ys) :
      Replaced name body (k + 1) (block ++ xs) (useLine name indent :: ys)

namespace Replaced

variable {name : List Char} {body : List (List Char)}

lemma refl (xs : List (List Char)) : Replaced name body 0 xs xs := by
  induction xs with
  | nil => exact nil
  | cons l rest ih => exact keep l ih

lemma kept {k : ℕ} {xs ys : List (List Char)} (ls : List (List Char))
    (h : Replaced name body k xs ys) : Replaced name body k (ls ++ xs) (ls ++ ys) := by
  induction ls with
  | nil => exact h
  | cons l rest ih => exact keep l ih

end Replaced

section Copies

variable {ls : List (List Char)} {name : List Char} {body : List (List Char)}

lemma replaced_replaceCopies {copies : List StaticBlock} {place : ℕ}
    (hplace : ∀ b ∈ copies, place ≤ b.first) (hstands : ∀ b ∈ copies, Stands ls b)
    (hbody : ∀ b ∈ copies, b.body = body)
    (hsep : copies.Pairwise fun a b => a.first + a.body.length ≤ b.first) :
    Replaced name body copies.length (ls.drop place)
      (replaceCopies name place (ls.drop place) copies) := by
  induction copies generalizing place with
  | nil => exact Replaced.refl _
  | cons b rest ih =>
    have hb := hplace b List.mem_cons_self
    have hdrop : (ls.drop place).drop (b.first - place + b.body.length) =
        ls.drop (b.first + b.body.length) := by
      rw [List.drop_drop]
      congr 1
      omega
    have hsplit : ls.drop place = (ls.drop place).take (b.first - place) ++
        ((ls.drop b.first).take b.body.length ++ ls.drop (b.first + b.body.length)) := by
      have hfirst : (ls.drop place).drop (b.first - place) = ls.drop b.first := by
        rw [List.drop_drop]
        congr 1
        omega
      rw [← List.drop_drop, List.take_append_drop, ← hfirst, List.take_append_drop]
    have hrest := ih (fun c hc => (List.pairwise_cons.1 hsep).1 c hc)
      (fun c hc => hstands c (List.mem_cons_of_mem _ hc))
      (fun c hc => hbody c (List.mem_cons_of_mem _ hc)) (List.pairwise_cons.1 hsep).2
    have hcopy : IsCopy b.indent body ((ls.drop b.first).take b.body.length) :=
      hbody b List.mem_cons_self ▸ (hstands b List.mem_cons_self).isCopy
    rw [replaceCopies, hdrop]
    nth_rewrite 1 [hsplit]
    exact Replaced.kept _ (Replaced.copy hcopy hrest)

/-- All copies of a block are replaced. -/
lemma replaced_copiesOf (ls : List (List Char)) (name : List Char) (least : ℕ) (b : StaticBlock) :
    Replaced name b.body (copiesOf (staticBlocks least 0 ls) b).length ls
      (replaceCopies name 0 ls (copiesOf (staticBlocks least 0 ls) b)) := by
  have hmem : ∀ c ∈ copiesOf (staticBlocks least 0 ls) b, Stands ls c ∧ c.body = b.body := by
    intro c hc
    obtain ⟨hc, hbody⟩ := List.mem_filter.1 hc
    exact ⟨(mem_staticBlocks_cases rfl hc).2, beq_iff_eq.1 hbody⟩
  have hordered : (copiesOf (staticBlocks least 0 ls) b).Pairwise (·.first < ·.first) :=
    (staticBlocks_ordered rfl).filter _
  rw [← ls.drop_zero]
  refine replaced_replaceCopies (fun c _ => Nat.zero_le _) (fun c hc => (hmem c hc).1)
    (fun c hc => (hmem c hc).2) (hordered.imp_of_mem ?_)
  intro a c ha hc hlt
  exact (hmem a ha).1.separate (hmem c hc).1 hlt (by rw [(hmem a ha).2, (hmem c hc).2])

end Copies

/-- A line that is not blank, has no margin and opens or closes no element. -/
def isFixed (l : List Char) : Bool :=
  match l with
  | [] => false
  | c :: _ => !isBlank c && c != '<'

section Fixed

lemma isBlankLine_drop {l : List Char} (h : isBlankLine l = true) (n : ℕ) :
    isBlankLine (l.drop n) = true :=
  List.all_eq_true.2 fun c hc => List.all_eq_true.1 h c (List.mem_of_mem_drop hc)

lemma isFixed_of_margin {indent : List Char} (h : ∀ c ∈ indent, isMargin c) {c : Char}
    (hc : isMargin c = true ∨ c = '<') (rest : List Char) :
    isFixed (indent ++ c :: rest) = false := by
  cases indent with
  | nil =>
    rcases hc with hc | rfl
    · simp [isFixed, isBlank_of_isMargin hc]
    · simp [isFixed]
  | cons d more => simp [isFixed, isBlank_of_isMargin (h d List.mem_cons_self)]

lemma isFixed_of_blank {l : List Char} (h : isBlankLine l = true) : isFixed l = false := by
  cases l with
  | nil => rfl
  | cons c rest =>
    have hc : isBlank c = true := List.all_eq_true.1 h c List.mem_cons_self
    simp [isFixed, hc]

lemma IsCopy.not_fixed {indent : List Char} {body block : List (List Char)}
    (h : IsCopy indent body block) {l : List Char} (hl : l ∈ block) : isFixed l = false := by
  rcases h.inside l hl with hblank | ⟨c, rest, rfl, hc⟩
  · exact isFixed_of_blank hblank
  · exact isFixed_of_margin h.margin (hc.imp_left (by rintro rfl; rfl)) rest

lemma useLine_not_fixed {name indent : List Char} (h : ∀ c ∈ indent, isMargin c) :
    isFixed (useLine name indent) = false := by
  rw [useLine, List.append_assoc]
  exact isFixed_of_margin h (.inr rfl) _

end Fixed

namespace Replaced

variable {name : List Char} {body xs ys zs : List (List Char)} {k : ℕ} {l : List Char}

lemma mem_right (h : Replaced name body k xs ys) (hl : l ∈ ys) :
    l ∈ xs ∨ ∃ indent, (∀ c ∈ indent, isMargin c) ∧ l = useLine name indent := by
  induction h with
  | nil => simp at hl
  | keep m h ih =>
    rcases List.mem_cons.1 hl with rfl | hl
    · exact .inl List.mem_cons_self
    · exact (ih hl).imp_left (List.mem_cons_of_mem _)
  | copy hcopy h ih =>
    rcases List.mem_cons.1 hl with rfl | hl
    · exact .inr ⟨_, hcopy.margin, rfl⟩
    · exact (ih hl).imp_left (List.mem_append_right _)

lemma mem_left (h : Replaced name body k xs ys) (hl : l ∈ xs) :
    l ∈ ys ∨ 0 < k ∧ ∃ indent block, IsCopy indent body block ∧ l ∈ block := by
  induction h with
  | nil => simp at hl
  | keep m h ih =>
    rcases List.mem_cons.1 hl with rfl | hl
    · exact .inl List.mem_cons_self
    · exact (ih hl).imp_left (List.mem_cons_of_mem _)
  | copy hcopy h ih =>
    rcases List.mem_append.1 hl with hl | hl
    · exact .inr ⟨Nat.succ_pos _, _, _, hcopy, hl⟩
    · exact (ih hl).imp (List.mem_cons_of_mem _) fun h => ⟨Nat.succ_pos _, h.2⟩

lemma eq_of_short (h : Replaced name body k xs ys) (hx : xs.length < 2) : ys = xs := by
  induction h with
  | nil => rfl
  | keep m _ ih => rw [ih ((List.sublist_cons_self _ _).length_le.trans_lt hx)]
  | copy hcopy _ _ =>
    have hlong := hcopy.long
    rw [List.length_append] at hx
    omega

lemma split_of_notMem (h : Replaced name body k (xs ++ l :: ys) zs)
    (hl : ∀ indent block, IsCopy indent body block → l ∉ block) : ∃ i j xs' ys', k = i + j ∧
      zs = xs' ++ l :: ys' ∧ Replaced name body i xs xs' ∧ Replaced name body j ys ys' := by
  generalize hall : xs ++ l :: ys = all at h
  induction h generalizing xs with
  | nil => simp at hall
  | @keep m k ws zs h ih =>
    rcases List.cons_eq_append_iff.1 hall.symm with ⟨rfl, hrest⟩ | ⟨more, rfl, rfl⟩
    · obtain ⟨rfl, rfl⟩ := List.cons.inj hrest
      exact ⟨0, k, [], zs, by omega, rfl, nil, h⟩
    · obtain ⟨i, j, xs', ys', rfl, rfl, hx, hy⟩ := ih rfl
      exact ⟨i, j, m :: xs', ys', rfl, rfl, keep m hx, hy⟩
  | @copy indent block k ws zs hcopy h ih =>
    have hnot : l ∉ block := hl indent block hcopy
    obtain ⟨more, rfl, rfl⟩ : ∃ more, xs = block ++ more ∧ ws = more ++ l :: ys := by
      rcases List.append_eq_append_iff.1 hall.symm with ⟨more, rfl, hws⟩ | ⟨more, rfl, hrest⟩
      · exact ⟨more, rfl, hws⟩
      · cases more with
        | nil => exact ⟨[], by simp, by simpa using hrest.symm⟩
        | cons m more =>
          obtain ⟨rfl, -⟩ := List.cons.inj hrest
          exact absurd (List.mem_append_right _ List.mem_cons_self) hnot
    obtain ⟨i, j, xs', ys', rfl, rfl, hx, hy⟩ := ih rfl
    exact ⟨i + 1, j, useLine name indent :: xs', ys', by omega, rfl, copy hcopy hx, hy⟩

/-- A fixed line is no part of a block. -/
lemma split (h : Replaced name body k (xs ++ l :: ys) zs) (hl : isFixed l = true) :
    ∃ i j xs' ys', k = i + j ∧ zs = xs' ++ l :: ys' ∧ Replaced name body i xs xs' ∧
      Replaced name body j ys ys' :=
  h.split_of_notMem fun _ _ hcopy hm => by simp [hcopy.not_fixed hm] at hl

lemma split_prefix (h : Replaced name body k (xs ++ ys) zs)
    (hx : ∀ l ∈ xs, ∀ indent block, IsCopy indent body block → l ∉ block) :
    ∃ j ys', zs = xs ++ ys' ∧ Replaced name body j ys ys' := by
  induction xs generalizing k zs with
  | nil => exact ⟨k, zs, rfl, h⟩
  | cons l xs ih =>
    have hl : Replaced name body k ([] ++ l :: (xs ++ ys)) zs := h
    obtain ⟨_, _, _, rest, -, rfl, hnil, hrest⟩ := hl.split_of_notMem (hx l List.mem_cons_self)
    obtain ⟨j, ys', rfl, hys⟩ := ih hrest fun m hm => hx m (List.mem_cons_of_mem l hm)
    obtain rfl := hnil.eq_of_short (by simp)
    exact ⟨j, ys', rfl, hys⟩

end Replaced

/-- What the margin of a line does not count for, and nothing on a blank line does. -/
structure IgnoresMargin {α : Type} (f : List Char → α) : Prop where
  margin : ∀ indent l, (∀ c ∈ indent, isMargin c) → f (indent ++ l) = f l
  blank : ∀ l, isBlankLine l → f l = f []

section Margins

variable {α β : Type} {f : List Char → α} {p : List Char → Bool} {name : List Char}
  {body block xs ys : List (List Char)} {k : ℕ} {indent l : List Char}

lemma IgnoresMargin.comp (hf : IgnoresMargin f) (g : α → β) : IgnoresMargin fun l => g (f l) where
  margin indent l h := congrArg g (hf.margin indent l h)
  blank l h := congrArg g (hf.blank l h)

lemma IsCopy.eq_of_ignoresMargin (h : IsCopy indent body block) (hf : IgnoresMargin f)
    (hl : l ∈ block) : f (l.drop indent.length) = f l := by
  rcases h.inside l hl with hblank | ⟨c, rest, rfl, -⟩
  · rw [hf.blank _ hblank, hf.blank _ (isBlankLine_drop hblank _)]
  · rw [List.drop_left, hf.margin _ _ h.margin]

lemma IsCopy.countP (h : IsCopy indent body block) (hp : IgnoresMargin p) :
    block.countP p = body.countP p := by
  rw [← h.body_eq, List.countP_map]
  refine List.countP_congr fun l hl => ?_
  rw [Function.comp_apply, h.eq_of_ignoresMargin hp hl]

lemma Replaced.countP (h : Replaced name body k xs ys) (hp : IgnoresMargin p)
    (huse : ∀ indent, (∀ c ∈ indent, isMargin c) → p (useLine name indent) = false) :
    xs.countP p = ys.countP p + k * body.countP p := by
  induction h with
  | nil => simp
  | keep l _ ih =>
    rw [List.countP_cons, List.countP_cons, ih]
    omega
  | copy hcopy _ ih =>
    rw [List.countP_append, List.countP_cons, hcopy.countP hp, ih, huse _ hcopy.margin,
      Nat.succ_mul]
    simp only [Bool.false_eq_true, ↓reduceIte]
    omega

end Margins

/-- Whether a line begins with an end tag. -/
def isCloser (l : List Char) : Bool :=
  match l.dropWhile isMargin with
  | '<' :: '/' :: _ => true
  | _ => false

section Closers

variable {n k : ℕ} {body xs ys : List (List Char)}

lemma isCloser_margin {indent : List Char} (h : ∀ c ∈ indent, isMargin c) (l : List Char) :
    isCloser (indent ++ l) = isCloser l := by
  rw [isCloser, isCloser, List.dropWhile_append_of_pos h]

lemma isCloser_of_blank {l : List Char} (h : isBlankLine l = true) : isCloser l = false := by
  unfold isCloser
  split
  · rename_i rest hrest
    have hmem : '<' ∈ l := (List.dropWhile_suffix _).mem (hrest ▸ List.mem_cons_self)
    exact absurd (List.all_eq_true.1 h _ hmem) (by decide)
  · rfl

lemma isCloser_ignoresMargin : IgnoresMargin isCloser where
  margin _ l h := isCloser_margin h l
  blank _ h := isCloser_of_blank h

lemma isCloser_useLine {indent : List Char} (h : ∀ c ∈ indent, isMargin c) (n : ℕ) :
    isCloser (useLine (sharedName n) indent) = false := by
  rw [useLine, List.append_assoc, isCloser_margin h]
  rfl

lemma Replaced.closers (h : Replaced (sharedName n) body k xs ys) :
    xs.countP isCloser = ys.countP isCloser + k * body.countP isCloser :=
  h.countP isCloser_ignoresMargin fun _ hindent => isCloser_useLine hindent n

lemma IsCopy.closers_pos {indent : List Char} {block : List (List Char)}
    (h : IsCopy indent body block) : 0 < body.countP isCloser := by
  obtain ⟨rest, hmem⟩ := h.closed
  rw [← h.countP isCloser_ignoresMargin]
  exact List.countP_pos_iff.2 ⟨_, hmem, by rw [isCloser_margin h.margin]; rfl⟩

end Closers

end ViewWriter.Script
