import ViewWriter.Proofs.Script.SharedNumber

/-! Static blocks of a script. Blocks of one length never overlap, and the lines that shape a
script stand in none of them. -/

namespace ViewWriter.Script

open ViewWriter.Text

/-- A block of lines with an indent and the lines without it. -/
structure IsCopy (indent : List Char) (body block : List (List Char)) : Prop where
  margin : ∀ c ∈ indent, isMargin c
  body_eq : block.map (·.drop indent.length) = body
  inside : ∀ l ∈ block, isBlankLine l = true ∨ ∃ c rest, l = indent ++ c :: rest ∧ (c = ' ' ∨ c = '<')
  long : 2 ≤ block.length
  closed : ∃ rest, indent ++ '<' :: '/' :: rest ∈ block

/-- A static block in its place among the lines of a script. -/
structure Stands (ls : List (List Char)) (b : StaticBlock) : Prop where
  long : 2 ≤ b.body.length
  body_eq : ((ls.drop b.first).take b.body.length).map (·.drop b.indent.length) = b.body
  opened : ∃ l name, ls[b.first]? = some l ∧ openedElement? l = some (b.indent, name)
  inside : ∀ i, b.first < i → i + 1 < b.first + b.body.length →
    ∃ l, ls[i]? = some l ∧ (isBlankLine l = true ∨ b.indent ++ [' '] <+: l)
  closed : ∃ l name, ls[b.first + b.body.length - 1]? = some l ∧
    trimEnd isBlank l = b.indent ++ endTag name

section Lines

lemma isBlank_of_isMargin {c : Char} (h : isMargin c = true) : isBlank c = true := by
  have hc : c = ' ' ∨ c = '\t' := by simpa [isMargin] using h
  rcases hc with rfl | rfl <;> decide

lemma openedElement?_cases {l indent name : List Char} (h : openedElement? l = some (indent, name)) :
    (∀ c ∈ indent, isMargin c) ∧ ∃ c rest, l = indent ++ '<' :: c :: rest ∧
      isAsciiLetter c = true := by
  unfold openedElement? at h
  split at h
  · rename_i c rest hrest
    simp only at h
    split at h
    · split_ifs at h with hc
      obtain ⟨rfl, -⟩ := Prod.mk.inj (Option.some.inj h)
      refine ⟨fun d hd => List.mem_takeWhile_imp hd, c, rest, ?_, (Bool.and_eq_true _ _ ▸ hc).1⟩
      rw [← hrest, List.takeWhile_append_dropWhile]
    · cases h
  · cases h

lemma isBlankLine_append_cons {cs : List Char} {c : Char} (hc : isBlank c = false) (ds : List Char) :
    isBlankLine (cs ++ c :: ds) = false := by
  simp [isBlankLine, hc]

lemma linesToClose?_cases {indent closing : List Char} {ls : List (List Char)} {k : Nat}
    (h : linesToClose? indent closing ls = some k) :
    ∃ inner last rest, ls = inner ++ last :: rest ∧ k = inner.length + 1 ∧
      trimEnd isBlank last = closing ∧
      ∀ l ∈ inner, isBlankLine l = true ∨ indent ++ [' '] <+: l := by
  induction ls generalizing k with
  | nil => simp [linesToClose?] at h
  | cons l rest ih =>
    rw [linesToClose?] at h
    split_ifs at h with hlast hinner
    · obtain rfl := Option.some.inj h
      exact ⟨[], l, rest, rfl, rfl, beq_iff_eq.1 hlast, by simp⟩
    · obtain ⟨k, hk, rfl⟩ := Option.map_eq_some_iff.1 h
      obtain ⟨inner, last, after, rfl, rfl, hclose, hall⟩ := ih hk
      refine ⟨l :: inner, last, after, rfl, rfl, hclose, ?_⟩
      intro m hm
      rcases List.mem_cons.1 hm with rfl | hm
      · rw [Bool.or_eq_true, List.isPrefixOf_iff_prefix] at hinner
        exact hinner
      · exact hall m hm

end Lines

section Places

variable {ls : List (List Char)} {b : StaticBlock} {least : Nat}

lemma take_through (xs ys : List (List Char)) (y : List Char) :
    (xs ++ y :: ys).take (xs.length + 1) = xs ++ [y] := by
  rw [List.take_length_add_append]
  rfl

lemma blockAt?_cases {first : Nat} {line : List Char} {after : List (List Char)}
    (h : blockAt? least first line after = some b) :
    b.first = first ∧ ∃ name inner last rest, after = inner ++ last :: rest ∧
      openedElement? line = some (b.indent, name) ∧
      trimEnd isBlank last = b.indent ++ endTag name ∧
      (∀ l ∈ inner, isBlankLine l = true ∨ b.indent ++ [' '] <+: l) ∧
      b.body = (line :: (inner ++ [last])).map (·.drop b.indent.length) := by
  unfold blockAt? at h
  simp only [Option.bind_eq_bind, Option.bind_eq_some_iff] at h
  obtain ⟨⟨indent, name⟩, hopened, h⟩ := h
  split_ifs at h
  · cases h
  · obtain ⟨count, hcount, h⟩ := Option.bind_eq_some_iff.1 h
    obtain ⟨inner, last, rest, rfl, rfl, hclose, hinner⟩ := linesToClose?_cases hcount
    split_ifs at h
    · cases h
    · cases h
    · cases h
    · obtain rfl := Option.some.inj h
      refine ⟨rfl, name, inner, last, rest, rfl, hopened, hclose, hinner, ?_⟩
      rw [take_through]

lemma stands_of_blockAt? {line : List Char} {after : List (List Char)}
    (hline : ls.drop b.first = line :: after) (h : blockAt? least b.first line after = some b) :
    Stands ls b := by
  obtain ⟨-, name, inner, last, rest, rfl, hopened, hclose, hinner, hbody⟩ := blockAt?_cases h
  have hlength : b.body.length = inner.length + 2 := by simp [hbody]
  have hat : ∀ i, ls[b.first + i]? = (line :: (inner ++ last :: rest))[i]? := by
    intro i
    rw [← List.getElem?_drop, hline]
  refine ⟨by omega, ?_, ⟨line, name, by simpa using hat 0, hopened⟩, ?_, ⟨last, name, ?_, hclose⟩⟩
  · rw [hline, hlength, List.take_succ_cons, take_through, hbody]
  · intro i hi hlast
    obtain ⟨j, rfl⟩ : ∃ j, i = b.first + (j + 1) := ⟨i - b.first - 1, by omega⟩
    have hj : j < inner.length := by omega
    refine ⟨inner[j], ?_, hinner _ (List.getElem_mem hj)⟩
    rw [hat, List.getElem?_cons_succ, List.getElem?_append_left hj, List.getElem?_eq_getElem hj]
  · have hend : b.first + b.body.length - 1 = b.first + (inner.length + 1) := by omega
    rw [hend, hat, List.getElem?_cons_succ, List.getElem?_append_right (le_refl _)]
    simp

lemma mem_staticBlocks_cases {first : Nat} {rest : List (List Char)}
    (hrest : ls.drop first = rest) (h : b ∈ staticBlocks least first rest) :
    first ≤ b.first ∧ Stands ls b := by
  induction rest generalizing first with
  | nil => simp [staticBlocks] at h
  | cons line after ih =>
    rw [staticBlocks, List.mem_append, Option.mem_toList] at h
    rcases h with h | h
    · obtain rfl := (blockAt?_cases h).1
      exact ⟨le_refl _, stands_of_blockAt? hrest h⟩
    · have hafter : ls.drop (first + 1) = after := by
        rw [← List.drop_drop, hrest, List.drop_one, List.tail_cons]
      obtain ⟨hle, hb⟩ := ih hafter h
      exact ⟨by omega, hb⟩

lemma staticBlocks_ordered {first : Nat} {rest : List (List Char)} (hrest : ls.drop first = rest) :
    (staticBlocks least first rest).Pairwise (·.first < ·.first) := by
  induction rest generalizing first with
  | nil => simp [staticBlocks]
  | cons line after ih =>
    have hafter : ls.drop (first + 1) = after := by
      rw [← List.drop_drop, hrest, List.drop_one, List.tail_cons]
    rw [staticBlocks, List.pairwise_append]
    refine ⟨?_, ih hafter, ?_⟩
    · cases blockAt? least first line after <;> simp
    · intro a ha b hb
      have hfirst := (blockAt?_cases (Option.mem_toList.1 ha)).1
      have hle := (mem_staticBlocks_cases hafter hb).1
      omega

end Places

section Overlap

variable {ls : List (List Char)} {a b : StaticBlock}

lemma trimEnd_prefix {p : Char → Bool} (cs : List Char) : trimEnd p cs <+: cs := by
  rw [trimEnd_eq_rdropWhile]
  exact List.rdropWhile_prefix p cs

lemma closing_eq {l indent name : List Char} (h : trimEnd isBlank l = indent ++ endTag name) :
    ∃ rest, l = indent ++ '<' :: '/' :: rest := by
  obtain ⟨tail, htail⟩ := trimEnd_prefix (p := isBlank) l
  refine ⟨name ++ ['>'] ++ tail, ?_⟩
  rw [← htail, h]
  simp [endTag]

lemma Stands.margin (h : Stands ls b) : ∀ c ∈ b.indent, isMargin c := by
  obtain ⟨l, name, -, hopened⟩ := h.opened
  exact (openedElement?_cases hopened).1

lemma Stands.closing_mem (h : Stands ls b) :
    ∃ rest, b.indent ++ '<' :: '/' :: rest ∈ (ls.drop b.first).take b.body.length := by
  obtain ⟨l, name, hl, hclosed⟩ := h.closed
  obtain ⟨rest, rfl⟩ := closing_eq hclosed
  have hlong := h.long
  refine ⟨rest, List.mem_iff_getElem?.2 ⟨b.body.length - 1, ?_⟩⟩
  rw [List.getElem?_take_of_lt (by omega), List.getElem?_drop, ← Nat.add_sub_assoc (by omega), hl]

lemma Stands.isCopy (h : Stands ls b) :
    IsCopy b.indent b.body ((ls.drop b.first).take b.body.length) := by
  have hlength := congrArg List.length h.body_eq
  rw [List.length_map] at hlength
  refine ⟨h.margin, h.body_eq, ?_, hlength.ge.trans' h.long, h.closing_mem⟩
  intro l hl
  obtain ⟨i, hi, rfl⟩ := List.mem_iff_getElem.1 hl
  have hat : ls[b.first + i]? = some ((ls.drop b.first).take b.body.length)[i] := by
    rw [List.getElem_take, List.getElem_drop, ← List.getElem?_eq_getElem]
  generalize ((ls.drop b.first).take b.body.length)[i] = l at hat
  rw [hlength] at hi
  rcases Nat.eq_zero_or_pos i with rfl | hpos
  · obtain ⟨m, name, hm, hopened⟩ := h.opened
    obtain ⟨-, c, rest, hrest, -⟩ := openedElement?_cases hopened
    obtain rfl : m = l := Option.some.inj (hm.symm.trans hat)
    exact .inr ⟨'<', c :: rest, hrest, .inr rfl⟩
  · by_cases hlast : i + 1 = b.body.length
    · obtain ⟨m, name, hm, hclosed⟩ := h.closed
      rw [← hlast, Nat.add_succ_sub_one] at hm
      obtain rfl : m = l := Option.some.inj (hm.symm.trans hat)
      obtain ⟨rest, hrest⟩ := closing_eq hclosed
      exact .inr ⟨'<', '/' :: rest, hrest, .inr rfl⟩
    · obtain ⟨m, hm, hinside⟩ := h.inside (b.first + i) (by omega) (by omega)
      obtain rfl : m = l := Option.some.inj (hm.symm.trans hat)
      rcases hinside with hblank | ⟨rest, hrest⟩
      · exact .inl hblank
      · exact .inr ⟨' ', rest, by rw [← hrest, List.append_assoc]; rfl, .inl rfl⟩

lemma margin_lt {outer indent rest l : List Char} (hl : l = indent ++ '<' :: rest)
    (hi : ∀ c ∈ indent, isMargin c) (ho : ∀ c ∈ outer, isMargin c) (h : outer ++ [' '] <+: l) :
    outer.length < indent.length := by
  obtain ⟨tail, htail⟩ := h
  have hindent : l.takeWhile isMargin = indent := hl ▸ takeWhile_stop hi rfl
  have houter : l.takeWhile isMargin = outer ++ ' ' :: tail.takeWhile isMargin := by
    rw [← htail, List.append_assoc, List.takeWhile_append_of_pos ho]
    rfl
  have hlength := congrArg List.length (hindent.symm.trans houter)
  simp only [List.length_append, List.length_cons] at hlength
  omega

/-- An element that opens inside a block of its length would end inside it, and the block would
end inside the element. -/
lemma Stands.separate (ha : Stands ls a) (hb : Stands ls b) (hfirst : a.first < b.first)
    (hlength : a.body.length = b.body.length) : a.first + a.body.length ≤ b.first := by
  by_contra hover
  have hlong := ha.long
  obtain ⟨l, name, hl, hopened⟩ := hb.opened
  obtain ⟨-, c, rest, hrest, hc⟩ := openedElement?_cases hopened
  obtain ⟨m, outer, hm, hclosed⟩ := ha.closed
  obtain ⟨more, hmore⟩ := closing_eq hclosed
  by_cases hlast : b.first = a.first + a.body.length - 1
  · -- one line cannot both open and close an element
    rw [← hlast] at hm
    obtain rfl : m = l := Option.some.inj (hm.symm.trans hl)
    have htake : m.dropWhile isMargin = '<' :: '/' :: more := hmore ▸ dropWhile_stop ha.margin rfl
    have htake' : m.dropWhile isMargin = '<' :: c :: rest := hrest ▸ dropWhile_stop hb.margin rfl
    have hslash : '/' = c ∧ more = rest := by simpa using htake.symm.trans htake'
    exact absurd hc (hslash.1 ▸ by decide)
  · obtain ⟨l', hl', hinner⟩ := ha.inside b.first hfirst (by omega)
    obtain rfl : l' = l := Option.some.inj (hl'.symm.trans hl)
    obtain ⟨m', hm', hinner'⟩ := hb.inside (a.first + a.body.length - 1) (by omega) (by omega)
    obtain rfl : m' = m := Option.some.inj (hm'.symm.trans hm)
    have hopens : isBlankLine l' = false := hrest ▸ isBlankLine_append_cons (by decide) _
    have hcloses : isBlankLine m' = false := hmore ▸ isBlankLine_append_cons (by decide) _
    have h₁ := margin_lt hrest hb.margin ha.margin (hinner.resolve_left (by simp [hopens]))
    have h₂ := margin_lt hmore ha.margin hb.margin (hinner'.resolve_left (by simp [hcloses]))
    omega

end Overlap

section Repeated

variable {b : StaticBlock}

lemma foldl_longer_mem {blocks : List StaticBlock} {best : Option StaticBlock}
    (h : blocks.foldl (fun best b => match best with
      | none => some b
      | some a => if isLonger b a then some b else some a) best = some b) :
    b ∈ best ∨ b ∈ blocks := by
  induction blocks generalizing best with
  | nil => exact .inl h
  | cons c rest ih =>
    rcases ih h with hb | hb
    · cases best with
      | none =>
        obtain rfl := Option.some.inj hb
        exact .inr List.mem_cons_self
      | some a =>
        simp only at hb
        split_ifs at hb
        · obtain rfl := Option.some.inj hb
          exact .inr List.mem_cons_self
        · exact .inl hb
    · exact .inr (List.mem_cons_of_mem _ hb)

lemma copies_of_repeated? {blocks : List StaticBlock} (h : repeated? blocks = some b) :
    2 ≤ (copiesOf blocks b).length ∧ b ∈ blocks := by
  rcases foldl_longer_mem h with hb | hb
  · cases hb
  · obtain ⟨hmem, hcount⟩ := List.mem_filter.1 hb
    exact ⟨of_decide_eq_true hcount, hmem⟩

end Repeated

end ViewWriter.Script
