import ViewWriter.Proofs.Stylesheet.Scanning
import ViewWriter.Proofs.Stylesheet.Step
import ViewWriter.Proofs.Traversal

/-! A stylesheet that was read and merged is written in a form that reads as the same rules. -/

namespace ViewWriter.Stylesheet

open ViewWriter.Text

/-- A declaration as reading leaves it. -/
structure IsReadDeclaration (d : StyleDeclaration) : Prop where
  property_ne : d.1.toList ≠ []
  property_trim : trim isBlank d.1.toList = d.1.toList
  property_colon : ':' ∉ d.1.toList
  property_harmless : Harmless d.1.toList
  value_ne : d.2.toList ≠ []
  value_squeezed : squeezed d.2.toList = d.2.toList
  value_harmless : Harmless d.2.toList
  closed : closes none 0 (d.1.toList ++ ':' :: d.2.toList) = true

/-- A rule as reading and merging leave it. -/
structure IsReadRule (r : Rule) : Prop where
  selector : ∃ pieces, pieces ≠ [] ∧ r.selector.toList = joinWith [',', ' '] pieces ∧
    ∀ piece ∈ pieces, squeezed piece = piece ∧ ',' ∉ piece ∧ Harmless piece
  declarations : ∀ d ∈ r.declarations, IsReadDeclaration d

/-- Rules that can stand one after the other: only the first may have an empty selector. -/
def IsReadSheet (rules : List Rule) : Prop :=
  (∀ r ∈ rules, IsReadRule r) ∧ ∀ r ∈ rules.tail, r.selector ≠ ""

section Reading

lemma isReadDeclaration_of_declaration? {part : List Char} {d : StyleDeclaration}
    (hpart : Harmless part) (hc : closes none 0 part = true) (h : declaration? part = some d) :
    IsReadDeclaration d := by
  unfold declaration? at h
  split at h
  · rename_i property value hcut
    obtain ⟨rfl, hcolon⟩ := of_cut hcut
    simp only [Bool.or_eq_true, List.isEmpty_iff] at h
    split_ifs at h with hne
    obtain rfl := Option.some.inj h
    rw [not_or] at hne
    constructor <;> simp only [String.toList_ofList]
    · exact hne.1
    · exact trim_trim property
    · exact fun hmem => hcolon ((trim_isInfix property).mem hmem)
    · exact hpart.of_isInfix ((trim_isInfix property).trans List.infix_append_left)
    · exact hne.2
    · exact squeezed_squeezed value
    · exact (hpart.of_isInfix (List.infix_append_of_infix_right (List.suffix_cons _ _).isInfix)).squeezed
    · rw [← hc]
      refine closes_eq_of_filter ?_
      rw [List.filter_append, List.filter_append, filter_trim, List.filter_cons, List.filter_cons,
        filter_squeezed]
  · simp at h

lemma isReadDeclaration_of_declarations? {body : List Char} {ds : List StyleDeclaration}
    (hbody : Harmless body) (h : declarations? body = some ds) :
    ∀ d ∈ ds, IsReadDeclaration d := by
  simp only [declarations?, Option.bind_eq_bind, Option.bind_eq_some_iff] at h
  obtain ⟨parts, hparts, hds⟩ := h
  obtain ⟨first, more, rfl, hfirst, hprefix, hmore⟩ := closes_of_splitBlock hparts
  have hread : ∀ part ∈ first :: more, Harmless part ∧ closes none 0 part = true := by
    intro part hmem
    rcases List.mem_cons.1 hmem with rfl | hmem
    · exact ⟨hbody.of_isInfix hprefix.isInfix, hfirst⟩
    · exact ⟨hbody.of_isInfix (hmore part hmem).2, (hmore part hmem).1⟩
  intro d hd
  obtain ⟨part, hpart, hread'⟩ := exists_of_mem_right (mapM_eq_some_iff.1 hds) hd
  have hmem := (List.mem_filter.1 hpart).1
  exact isReadDeclaration_of_declaration? (hread part hmem).1 (hread part hmem).2 hread'

lemma isReadRule_selectorOf {cs : List Char} (hcs : Harmless cs) {ds : List StyleDeclaration}
    (hds : ∀ d ∈ ds, IsReadDeclaration d) : IsReadRule ⟨selectorOf cs, ds⟩ := by
  refine ⟨⟨(splitOn ',' cs).map squeezed, ?_, by simp [selectorOf], ?_⟩, hds⟩
  · simp [splitOn_ne_nil]
  · intro piece hmem
    obtain ⟨raw, hraw, rfl⟩ := List.mem_map.1 hmem
    refine ⟨squeezed_squeezed raw, fun hc => ?_, (hcs.of_isInfix (infix_of_mem_splitOn hraw)).squeezed⟩
    rcases mem_of_mem_squeezed hc with hc | hc
    · exact absurd hc (by decide)
    · exact notMem_of_splitOn hraw hc

lemma rules?_block {selector body : List Char} (rest : List Char)
    (hs : ∀ c ∈ selector, isBrace c = false) (hne : selector ≠ [])
    (hb : ∀ c ∈ body, isBrace c = false) :
    rules? (selector ++ '\x7b' :: (body ++ '\x7d' :: rest)) =
      (declarations? body).bind fun ds =>
        (rules? (rest.dropWhile isBlank)).map (⟨selectorOf selector, ds⟩ :: ·) := by
  have hall : (selector ++ '\x7b' :: (body ++ '\x7d' :: rest)).all isBlank = false := by
    rw [List.all_append, List.all_cons]
    simp [show isBlank '\x7b' = false by decide]
  have hs' : ∀ c ∈ selector, (!isBrace c) = true := by simpa using hs
  have hb' : ∀ c ∈ body, (!isBrace c) = true := by simpa using hb
  have hopen : (!isBrace '\x7b') = false := by decide
  have hclose : (!isBrace '\x7d') = false := by decide
  rw [rules?.eq_def, if_neg (by simp [hall])]
  simp only [takeWhile_stop hs' hopen]
  split
  · rename_i inside h
    rw [drop_takeWhile, dropWhile_stop hs' hopen] at h
    obtain rfl := (List.cons.inj h).2
    simp only [takeWhile_stop hb' hclose]
    split
    · rename_i after h'
      rw [drop_takeWhile, dropWhile_stop hb' hclose] at h'
      obtain rfl := (List.cons.inj h').2
      rw [if_neg (by simpa using hne)]
      cases declarations? body with
      | none => rfl
      | some ds => cases rules? (rest.dropWhile isBlank) <;> rfl
    · rename_i h'
      refine absurd ?_ (h' rest)
      rw [drop_takeWhile, dropWhile_stop hb' hclose]
  · rename_i h
    refine absurd ?_ (h (body ++ '\x7d' :: rest))
    rw [drop_takeWhile, dropWhile_stop hs' hopen]

lemma of_rules? {cs : List Char} {r : Rule} {more : List Rule} (h : rules? cs = some (r :: more)) :
    ∃ selector body rest, cs = selector ++ '\x7b' :: (body ++ '\x7d' :: rest) ∧
      selector ≠ [] ∧ (∀ c ∈ selector, isBrace c = false) ∧ (∀ c ∈ body, isBrace c = false) ∧
      r.selector = selectorOf selector ∧ declarations? body = some r.declarations ∧
      rules? (rest.dropWhile isBlank) = some more := by
  rw [rules?.eq_def] at h
  split_ifs at h
  · simp at h
  dsimp only at h
  split at h
  · rename_i inside hin
    split at h
    · rename_i rest hrest
      split_ifs at h with hne
      obtain ⟨ds, hds, h⟩ := Option.bind_eq_some_iff.1 h
      obtain ⟨more', hmore, h⟩ := Option.bind_eq_some_iff.1 h
      obtain ⟨rfl, rfl⟩ := List.cons.inj (Option.some.inj h)
      rw [drop_takeWhile] at hin hrest
      refine ⟨cs.takeWhile (!isBrace ·), inside.takeWhile (!isBrace ·), rest, ?_,
        by simpa using hne, fun c hc => by simpa using List.mem_takeWhile_imp hc,
        fun c hc => by simpa using List.mem_takeWhile_imp hc, rfl, hds, hmore⟩
      rw [← hrest, List.takeWhile_append_dropWhile, ← hin, List.takeWhile_append_dropWhile]
    · simp at h
  · simp at h

lemma selectorOf_ne {c : Char} (hc : isBlank c = false) (cs : List Char) :
    selectorOf (c :: cs) ≠ "" := by
  intro h
  have hnil : joinWith [',', ' '] ((splitOn ',' (c :: cs)).map squeezed) = [] := by
    simpa [selectorOf] using congrArg String.toList h
  obtain ⟨piece, pieces, hp⟩ := List.exists_cons_of_ne_nil (splitOn_ne_nil ',' cs)
  by_cases hcomma : c = ','
  · rw [splitOn, if_pos hcomma, hp] at hnil
    simp [joinWith] at hnil
  · rw [splitOn, if_neg hcomma, hp] at hnil
    have hpiece : squeezed (c :: piece) = [] := by
      cases pieces <;> simp_all [joinWith]
    have hblank := squeezed_eq_nil_iff.1 hpiece c List.mem_cons_self
    simp [hc] at hblank

lemma isReadSheet_of_rules? {cs : List Char} {rules : List Rule}
    (hcs : IsFlat cs) (h : rules? cs = some rules) : IsReadSheet rules := by
  induction rules generalizing cs with
  | nil => simp [IsReadSheet]
  | cons r more ih =>
    obtain ⟨selector, body, rest, rfl, -, hs, hb, hr, hds, hmore⟩ := of_rules? h
    have hharmless : ∀ part : List Char, part <:+: selector ++ '\x7b' :: (body ++ '\x7d' :: rest) →
        (∀ c ∈ part, isBrace c = false) → Harmless part :=
      fun part hi hbrace => ⟨hcs.of_isInfix hi, hbrace⟩
    have hbody := hharmless body
      (List.infix_append_of_infix_right (List.infix_cons List.infix_append_left)) hb
    have hdrop : rest.dropWhile isBlank <:+: selector ++ '\x7b' :: (body ++ '\x7d' :: rest) :=
      (List.dropWhile_suffix isBlank).isInfix.trans (List.infix_append_of_infix_right
        (List.infix_cons (List.infix_append_of_infix_right (List.suffix_cons _ _).isInfix)))
    have hsheet := ih (hcs.of_isInfix hdrop) hmore
    refine ⟨?_, ?_⟩
    · intro s hmem
      rcases List.mem_cons.1 hmem with rfl | hmem
      · have hread := isReadRule_selectorOf (hharmless selector List.infix_append_left hs)
          (isReadDeclaration_of_declarations? hbody hds)
        rwa [← hr] at hread
      · exact hsheet.1 s hmem
    · intro s hmem
      rw [List.tail_cons] at hmem
      cases more with
      | nil => simp at hmem
      | cons first more =>
        rcases List.mem_cons.1 hmem with rfl | hmem
        · obtain ⟨selector', body', rest', hcs', hne, -, -, hr', -⟩ := of_rules? hmore
          obtain ⟨c, selector', rfl⟩ := List.exists_cons_of_ne_nil hne
          rw [hr']
          refine selectorOf_ne ?_ selector'
          have hhead := List.head?_dropWhile_not isBlank rest
          rw [hcs'] at hhead
          simpa using hhead
        · exact hsheet.2 s hmem

lemma isReadSheet_of_parse? {css : String} {rules : List Rule} (h : parse? css = some rules) :
    IsReadSheet rules := by
  simp only [parse?] at h
  split_ifs at h with hc
  simp only [Bool.or_eq_true, List.contains_iff_mem, not_or, Bool.not_eq_true] at hc
  refine isReadSheet_of_rules? ⟨hc.2, fun hcomment => ?_⟩ h
  rw [hasPart_iff.2 hcomment] at hc
  simp at hc

end Reading

section Merging

lemma IsReadRule.lastOfEach {selector : String} {ds : List StyleDeclaration}
    (h : IsReadRule ⟨selector, ds⟩) : IsReadRule ⟨selector, lastOfEach ds⟩ :=
  ⟨h.selector, fun d hd => h.declarations d (mem_of_mem_lastOfEach hd)⟩

lemma IsReadRule.merge? {earlier later merged : Rule} (he : IsReadRule earlier)
    (hl : IsReadRule later) (h : merge? earlier later = some merged) : IsReadRule merged := by
  rcases merge?_cases h with ⟨-, rfl⟩ | ⟨-, rfl⟩
  · refine IsReadRule.lastOfEach ⟨he.selector, fun d hd => ?_⟩
    rcases List.mem_append.1 hd with hd | hd
    · exact he.declarations d hd
    · exact hl.declarations d hd
  · obtain ⟨xs, hx, hxs, hpx⟩ := he.selector
    obtain ⟨ys, hy, hys, hpy⟩ := hl.selector
    refine ⟨⟨xs ++ ys, by simp [hx], ?_, fun piece hmem => ?_⟩, he.declarations⟩
    · simp [hxs, hys, joinWith_append hx hy]
    · rcases List.mem_append.1 hmem with hmem | hmem
      · exact hpx piece hmem
      · exact hpy piece hmem

lemma merge?_selector_ne {earlier later merged : Rule} (h : merge? earlier later = some merged)
    (he : earlier.selector ≠ "") : merged.selector ≠ "" := by
  rcases merge?_cases h with ⟨-, rfl⟩ | ⟨-, rfl⟩
  · exact he
  · intro hempty
    have := congrArg String.length hempty
    simp at this

lemma IsReadSheet.replace {before after after' : List Rule} {r r' : Rule}
    (h : IsReadSheet (before ++ r :: after)) (hr : IsReadRule r')
    (hne : r.selector ≠ "" → r'.selector ≠ "") (hafter : ∀ s ∈ after', s ∈ after) :
    IsReadSheet (before ++ r' :: after') := by
  obtain ⟨hread, hsel⟩ := h
  refine ⟨fun s hs => ?_, ?_⟩
  · rcases List.mem_append.1 hs with hs | hs
    · exact hread s (List.mem_append_left _ hs)
    · rcases List.mem_cons.1 hs with rfl | hs
      · exact hr
      · exact hread s (List.mem_append_right _ (List.mem_cons_of_mem _ (hafter s hs)))
  · cases before with
    | nil => exact fun s hs => hsel s (hafter s hs)
    | cons b before =>
      intro s hs
      rcases List.mem_append.1 hs with hs | hs
      · exact hsel s (List.mem_append_left _ hs)
      · rcases List.mem_cons.1 hs with rfl | hs
        · exact hne (hsel r (List.mem_append_right _ List.mem_cons_self))
        · exact hsel s (List.mem_append_right _ (List.mem_cons_of_mem _ (hafter s hs)))

lemma IsReadSheet.step? {rules next : List Rule} (hstep : step? rules = some next)
    (h : IsReadSheet rules) : IsReadSheet next := by
  refine step?_induction ?_ ?_ hstep h
  · intro before r after h
    have hr := h.1 r (List.mem_append_right _ List.mem_cons_self)
    exact h.replace hr.lastOfEach id fun _ hs => hs
  · intro before earlier between later after merged _ hm h
    have he := h.1 earlier (List.mem_append_right _ List.mem_cons_self)
    have hl := h.1 later (by simp)
    refine h.replace (he.merge? hl hm) (merge?_selector_ne hm) fun s hs => ?_
    rcases List.mem_append.1 hs with hs | hs
    · exact List.mem_append_left _ hs
    · exact List.mem_append_right _ (List.mem_cons_of_mem _ hs)

lemma IsReadSheet.steps {n : ℕ} {rules next : List Rule} (hs : Steps n rules next)
    (h : IsReadSheet rules) : IsReadSheet next :=
  hs.keeps (fun _ _ _ _ hstep => IsReadSheet.step? hstep) h

lemma IsReadSheet.merged {rules : List Rule} (h : IsReadSheet rules) :
    IsReadSheet (merged rules) := by
  obtain ⟨n, hs⟩ := exists_steps_merged rules
  exact h.steps hs

end Merging

section Writing

variable {indent : String} (hi : ∀ c ∈ indent.toList, isBlank c = true)

/-- The inside of a written block. -/
def bodyOf (indent : String) (ds : List StyleDeclaration) : List Char :=
  '\n' :: ds.flatMap fun d => indent.toList ++ d.1.toList ++ ':' :: ' ' :: d.2.toList ++ [';', '\n']

lemma joinLines (ls : List (List Char)) (last : List Char) :
    joinWith ['\n'] (ls ++ [last]) = ls.flatMap (· ++ ['\n']) ++ last := by
  induction ls with
  | nil => simp [joinWith]
  | cons l rest ih =>
    rw [List.cons_append, joinWith, List.intercalate_cons_of_ne_nil (by simp)]
    rw [joinWith] at ih
    simp [ih]

lemma toList_write (indent : String) (r : Rule) :
    (r.write indent).toList =
      (r.selector.toList ++ [' ']) ++ '\x7b' :: (bodyOf indent r.declarations ++ ['\x7d']) := by
  simp only [Rule.write, join, bodyOf, String.toList_ofList, List.map_append, List.map_singleton]
  rw [show "\n".toList = ['\n'] from rfl, joinLines]
  simp [List.flatMap_map, Function.comp_def]

/-- The text of a declaration up to its semicolon. -/
def lineOf (indent : String) (d : StyleDeclaration) : List Char :=
  ('\n' :: indent.toList ++ d.1.toList) ++ ':' :: ' ' :: d.2.toList

include hi

lemma blank_margin : ∀ c ∈ '\n' :: indent.toList, isBlank c = true := by
  intro c hc
  rcases List.mem_cons.1 hc with rfl | hc
  · decide
  · exact hi c hc

lemma closes_lineOf {d : StyleDeclaration} (h : IsReadDeclaration d) :
    closes none 0 (lineOf indent d) = true := by
  rw [← h.closed]
  refine closes_eq_of_filter ?_
  have hmargin : ('\n' :: indent.toList).filter (!isBlank ·) = [] :=
    List.filter_eq_nil_iff.2 (by simpa using blank_margin hi)
  rw [lineOf, List.filter_append, List.filter_append, hmargin, List.filter_append]
  rfl

lemma splitBlock_bodyOf {ds : List StyleDeclaration} (h : ∀ d ∈ ds, IsReadDeclaration d) :
    splitBlock none 0 (bodyOf indent ds) = some (ds.map (lineOf indent) ++ [['\n']]) := by
  induction ds with
  | nil => rfl
  | cons d rest ih =>
    have hrest := ih fun e he => h e (List.mem_cons_of_mem _ he)
    have hbody : bodyOf indent (d :: rest) = lineOf indent d ++ ';' :: bodyOf indent rest := by
      simp [bodyOf, lineOf]
    rw [hbody, splitBlock_append (closes_lineOf hi (h d List.mem_cons_self)), hrest]
    rfl

lemma declaration?_lineOf {d : StyleDeclaration} (h : IsReadDeclaration d) :
    declaration? (lineOf indent d) = some d := by
  have hcolon : ':' ∉ '\n' :: indent.toList ++ d.1.toList := by
    intro hmem
    rcases List.mem_append.1 hmem with hmem | hmem
    · exact absurd (blank_margin hi ':' hmem) (by decide)
    · exact h.property_colon hmem
  rw [declaration?, lineOf, cut_append hcolon]
  have hvalue : squeezed (' ' :: d.2.toList) = d.2.toList := by
    rw [squeezed_space, h.value_squeezed]
  simp only [trim_append_of_all (blank_margin hi), h.property_trim, hvalue]
  rw [if_neg (by simp [h.property_ne, h.value_ne])]
  simp

lemma declarations?_bodyOf {ds : List StyleDeclaration} (h : ∀ d ∈ ds, IsReadDeclaration d) :
    declarations? (bodyOf indent ds) = some ds := by
  have hline : ∀ d, (!(lineOf indent d).all isBlank) = true := by
    intro d
    simp [lineOf, show isBlank ':' = false by decide]
  have hkept : (ds.map (lineOf indent) ++ [['\n']]).filter (fun part => !part.all isBlank) =
      ds.map (lineOf indent) := by
    rw [List.filter_append, List.filter_eq_self.2]
    · simp [show isBlank '\n' = true by decide]
    · intro part hpart
      obtain ⟨d, -, rfl⟩ := List.mem_map.1 hpart
      exact hline d
  rw [declarations?, splitBlock_bodyOf hi h]
  simp only [Option.bind_eq_bind, Option.bind_some, hkept]
  refine mapM_eq_some_iff.2 (List.forall₂_map_left_iff.2 (List.forall₂_same.2 ?_))
  exact fun d hd => declaration?_lineOf hi (h d hd)

omit hi in
lemma selectorOf_selector {r : Rule} (h : IsReadRule r) :
    selectorOf (r.selector.toList ++ [' ']) = r.selector := by
  obtain ⟨pieces, hne, hs, hp⟩ := h.selector
  have hspace : ∀ cs, (splitOn ',' (' ' :: cs)).map squeezed = (splitOn ',' cs).map squeezed := by
    intro cs
    obtain ⟨first, more, hf⟩ := List.exists_cons_of_ne_nil (splitOn_ne_nil ',' cs)
    rw [splitOn, if_neg (by decide), hf]
    simp [squeezed_space]
  have hsplit : (splitOn ',' (joinWith [',', ' '] pieces ++ [' '])).map squeezed = pieces := by
    clear hs
    induction pieces with
    | nil => contradiction
    | cons piece rest ih =>
      obtain ⟨hsq, hcomma, -⟩ := hp piece List.mem_cons_self
      cases rest with
      | nil =>
        have hnot : ',' ∉ piece ++ [' '] := by simp [hcomma]
        simp [joinWith, splitOn_of_notMem hnot, squeezed_append_space, hsq]
      | cons next rest =>
        have hrest := ih (by simp) fun p hmem => hp p (List.mem_cons_of_mem _ hmem)
        have happend : joinWith [',', ' '] (piece :: next :: rest) ++ [' '] =
            piece ++ ',' :: ' ' :: (joinWith [',', ' '] (next :: rest) ++ [' ']) := by
          simp [joinWith]
        rw [happend, splitOn_append hcomma, List.map_cons, hspace, hrest, hsq]
  rw [selectorOf, hs, hsplit, ← hs, String.ofList_toList]

omit hi in
lemma selector_head {r : Rule} (h : IsReadRule r) (hne : r.selector ≠ "") :
    ∃ c cs, r.selector.toList = c :: cs ∧ isBlank c = false := by
  obtain ⟨pieces, -, hs, hp⟩ := h.selector
  cases hcs : r.selector.toList with
  | nil => exact absurd (String.toList_eq_nil_iff.1 hcs) hne
  | cons c cs =>
    refine ⟨c, cs, rfl, ?_⟩
    rw [hcs] at hs
    cases pieces with
    | nil => simp [joinWith] at hs
    | cons piece rest =>
      obtain ⟨hsq, -, -⟩ := hp piece List.mem_cons_self
      cases piece with
      | nil =>
        cases rest with
        | nil => simp [joinWith] at hs
        | cons next rest =>
          obtain rfl : c = ',' := by simpa [joinWith] using congrArg List.head? hs
          decide
      | cons d piece =>
        obtain rfl : c = d := by
          cases rest <;> simpa [joinWith] using congrArg List.head? hs
        have hhead : (squeezed (c :: piece)).head? = some c := by rw [hsq]; rfl
        exact head_squeezed hhead

omit hi in
lemma selector_harmless {r : Rule} (h : IsReadRule r) : Harmless r.selector.toList := by
  obtain ⟨pieces, -, hs, hp⟩ := h.selector
  exact hs ▸ Harmless.joinPieces fun piece hmem => (hp piece hmem).2.2

lemma lineOf_isFlat {d : StyleDeclaration} (h : IsReadDeclaration d) :
    IsFlat (lineOf indent d) := by
  have hproperty := isFlat_blank_append (blank_margin hi) h.property_harmless.1
  have hvalue := isFlat_nil.append_cons ' ' (by decide) h.value_harmless.1
  exact hproperty.append_cons ':' (by decide) hvalue

lemma bodyOf_isFlat {ds : List StyleDeclaration} (h : ∀ d ∈ ds, IsReadDeclaration d) :
    IsFlat (bodyOf indent ds) := by
  induction ds with
  | nil => exact isFlat_nil.append_cons '\n' (by decide) isFlat_nil
  | cons d rest ih =>
    have hrest := ih fun e he => h e (List.mem_cons_of_mem _ he)
    have hbody : bodyOf indent (d :: rest) = lineOf indent d ++ ';' :: bodyOf indent rest := by
      simp [bodyOf, lineOf]
    rw [hbody]
    exact (lineOf_isFlat hi (h d List.mem_cons_self)).append_cons ';' (by decide) hrest

lemma bodyOf_brace {ds : List StyleDeclaration} (h : ∀ d ∈ ds, IsReadDeclaration d) :
    ∀ c ∈ bodyOf indent ds, isBrace c = false := by
  have hblank : ∀ c, isBlank c = true → isBrace c = false := by
    intro c hc
    refine Bool.eq_false_iff.2 fun hb => ?_
    simp only [isBrace, Bool.or_eq_true, beq_iff_eq] at hb
    rcases hb with rfl | rfl <;> exact absurd hc (by decide)
  intro c hc
  simp only [bodyOf, List.mem_cons, List.mem_flatMap, List.mem_append, List.not_mem_nil,
    or_false] at hc
  rcases hc with rfl | ⟨d, hd, ((hc | hc) | rfl | rfl | hc) | rfl | rfl⟩
  · decide
  · exact hblank c (hi c hc)
  · exact (h d hd).property_harmless.2 c hc
  · decide
  · decide
  · exact (h d hd).value_harmless.2 c hc
  · decide
  · decide

lemma write_isFlat {r : Rule} (h : IsReadRule r) {rest : List Char} (hrest : IsFlat rest) :
    IsFlat ((r.write indent).toList ++ rest) := by
  have hclose := (bodyOf_isFlat hi h.declarations).append_cons '\x7d' (by decide) hrest
  have hopen := isFlat_nil.append_cons '\x7b' (by decide) hclose
  have hspace := (selector_harmless h).1.append_cons ' ' (by decide) hopen
  simpa [toList_write] using hspace

lemma rules?_write {r : Rule} (h : IsReadRule r) (rest : List Char) :
    rules? ((r.write indent).toList ++ rest) =
      (rules? (rest.dropWhile isBlank)).map (r :: ·) := by
  have hsel : ∀ c ∈ r.selector.toList ++ [' '], isBrace c = false := by
    intro c hc
    rcases List.mem_append.1 hc with hc | hc
    · exact (selector_harmless h).2 c hc
    · rw [List.mem_singleton.1 hc]
      decide
  have hblock := rules?_block rest hsel (by simp) (bodyOf_brace hi h.declarations)
  rw [declarations?_bodyOf hi h.declarations, selectorOf_selector h] at hblock
  rw [toList_write]
  simpa using hblock

/-- A rule list in its written form, with the rules one after the other. -/
def sheetOf (indent : String) : List Rule → List Char
  | [] => []
  | [r] => (r.write indent).toList ++ ['\n']
  | r :: rest => (r.write indent).toList ++ '\n' :: '\n' :: sheetOf indent rest

omit hi in
lemma toList_write_rules (rules : List Rule) :
    (write indent rules).toList = sheetOf indent rules := by
  have hjoin : ∀ (r : Rule) (rest : List Rule),
      joinWith ['\n', '\n'] ((r :: rest).map fun s => (s.write indent).toList) ++ ['\n'] =
        sheetOf indent (r :: rest) := by
    intro r rest
    induction rest generalizing r with
    | nil => simp [joinWith, sheetOf]
    | cons s rest ih =>
      rw [sheetOf, ← ih s]
      · simp [joinWith]
      · simp
  cases rules with
  | nil => rfl
  | cons r rest =>
    rw [← hjoin]
    simp [write, join, Function.comp_def]

lemma sheetOf_isFlat {rules : List Rule} (h : ∀ r ∈ rules, IsReadRule r) :
    IsFlat (sheetOf indent rules) := by
  fun_induction sheetOf indent rules with
  | case1 => exact isFlat_nil
  | case2 r =>
    exact write_isFlat hi (h r List.mem_cons_self)
      (isFlat_nil.append_cons '\n' (by decide) isFlat_nil)
  | case3 r rest _ ih =>
    have hrest := ih fun s hs => h s (List.mem_cons_of_mem _ hs)
    have hline := isFlat_nil.append_cons '\n' (by decide) hrest
    exact write_isFlat hi (h r List.mem_cons_self) (isFlat_nil.append_cons '\n' (by decide) hline)

omit hi in
lemma rules?_nil : rules? [] = some [] := by
  rw [rules?]
  rfl

lemma rules?_sheetOf {rules : List Rule} (h : IsReadSheet rules) :
    rules? (sheetOf indent rules) = some rules := by
  fun_induction sheetOf indent rules with
  | case1 => exact rules?_nil
  | case2 r =>
    have hend : ['\n'].dropWhile isBlank = [] := by decide
    rw [rules?_write hi (h.1 r List.mem_cons_self), hend, rules?_nil]
    rfl
  | case3 r rest hne ih =>
    obtain ⟨s, more, rfl⟩ := List.exists_cons_of_ne_nil hne
    have hsheet : IsReadSheet (s :: more) :=
      ⟨fun t ht => h.1 t (List.mem_cons_of_mem _ ht),
        fun t ht => h.2 t (List.mem_cons_of_mem _ ht)⟩
    obtain ⟨c, cs, hcs, hc⟩ :=
      selector_head (hsheet.1 s List.mem_cons_self) (h.2 s List.mem_cons_self)
    have hstart : ∃ after, sheetOf indent (s :: more) = c :: after := by
      cases more <;> simp [sheetOf, toList_write, hcs]
    obtain ⟨after, hafter⟩ := hstart
    have hdrop : ('\n' :: '\n' :: sheetOf indent (s :: more)).dropWhile isBlank =
        sheetOf indent (s :: more) := by
      have hbreak : isBlank '\n' = true := by decide
      rw [hafter, List.dropWhile_cons_of_pos hbreak, List.dropWhile_cons_of_pos hbreak,
        List.dropWhile_cons_of_neg (by simp [hc])]
    rw [rules?_write hi (h.1 r List.mem_cons_self), hdrop, ih hsheet]
    rfl

/-- Rules that were read, or merged from such, are read again as they were written. -/
lemma parse?_write {rules : List Rule} (h : IsReadSheet rules) :
    parse? (write indent rules) = some rules := by
  have hflat := sheetOf_isFlat hi h.1
  have hcomment : hasPart ['/', '*'] (sheetOf indent rules) = false :=
    Bool.eq_false_iff.2 fun hpart => hflat.2 (hasPart_iff.1 hpart)
  rw [parse?, toList_write_rules]
  simp [hcomment, hflat.1, rules?_sheetOf hi h]

end Writing

end ViewWriter.Stylesheet
