import Mathlib.Data.List.Count
import ViewWriter.Proofs.Script.LineShape

/-! Lines that load a component later: their parts, and that none of them hides in another one whose
source is spread over lines. -/

namespace ViewWriter.Script

open ViewWriter.Text

/-- What stands before and after the source in a call that loads a component later. -/
inductive IsLoader : List Char → List Char → Prop
  | lazy : IsLoader "lazy(() => import('".toList "'))".toList
  | asyncComponent : IsLoader "defineAsyncComponent(() => import('".toList "'))".toList
  | member {name : List Char} (hne : name ≠ []) (hname : ∀ c ∈ name, isIdentifierPart c) :
      IsLoader "() => import('".toList ("').then((module) => module.".toList ++ (name ++ [')']))

structure Wrapper where
  indent : List Char
  name : List Char
  opening : List Char
  source : List Char
  closing : List Char
  margin : List Char

namespace Wrapper

def head (w : Wrapper) : List Char :=
  w.indent ++ ("const ".toList ++ (w.name ++ (" = ".toList ++ w.opening)))

def tail (w : Wrapper) : List Char := w.closing ++ ';' :: w.margin

def text (w : Wrapper) : List Char := w.head ++ (w.source ++ w.tail)

def line (w : Wrapper) : LazyLine := ⟨w.indent, String.ofList w.name, String.ofList w.source⟩

structure IsValid (w : Wrapper) : Prop where
  indent : ∀ c ∈ w.indent, isMargin c
  name : isIdentifier w.name = true
  loader : IsLoader w.opening w.closing
  source_ne : w.source ≠ []
  source : '\'' ∉ w.source
  margin : ∀ c ∈ w.margin, isMargin c

end Wrapper

section Wrappers

variable {source rest cs ending : List Char} {w : Wrapper}

lemma not_quote (h : '\'' ∉ source) : ∀ c ∈ source, (c != '\'') = true :=
  fun c hc => by simpa using ne_of_mem_of_not_mem hc h

lemma quotedSource?_eq_some_iff {closing : String} {more : List Char}
    (hclosing : closing.toList = '\'' :: more) :
    quotedSource? closing cs = some (source, rest) ↔
      source ≠ [] ∧ '\'' ∉ source ∧ cs = source ++ (closing.toList ++ rest) := by
  simp only [quotedSource?, drop_takeWhile]
  constructor
  · intro h
    split_ifs at h with hempty
    obtain ⟨rest', hrest, h⟩ := Option.map_eq_some_iff.1 h
    obtain ⟨rfl, rfl⟩ := Prod.mk.inj h
    refine ⟨by simpa using hempty, fun hmem => ?_, ?_⟩
    · simpa using List.mem_takeWhile_imp hmem
    · rw [← stripPrefix?_eq_some_iff.1 hrest, List.takeWhile_append_dropWhile]
  · rintro ⟨hne, hno, rfl⟩
    have hquote : ('\'' != '\'') = false := by decide
    rw [hclosing, List.cons_append, takeWhile_stop (not_quote hno) hquote,
      dropWhile_stop (not_quote hno) hquote, ← List.cons_append, ← hclosing]
    simp [hne, stripPrefix?_eq_some_iff.2]

lemma loaderMember?_eq_some_iff {r : List Char × List Char} :
    loaderMember? r = some (source, rest) ↔ source = r.1 ∧ ∃ name, name ≠ [] ∧
      (∀ c ∈ name, isIdentifierPart c) ∧ r.2 = name ++ ([')'] ++ rest) := by
  simp only [loaderMember?, drop_takeWhile]
  constructor
  · intro h
    split_ifs at h with hempty
    obtain ⟨rest', hrest, h⟩ := Option.map_eq_some_iff.1 h
    obtain ⟨rfl, rfl⟩ := Prod.mk.inj h
    refine ⟨rfl, r.2.takeWhile isIdentifierPart, by simpa using hempty, ?_, ?_⟩
    · exact fun c hc => List.mem_takeWhile_imp hc
    · rw [← stripPrefix?_eq_some_iff.1 hrest, List.takeWhile_append_dropWhile]
  · rintro ⟨rfl, name, hne, hpart, hr⟩
    have hparen : isIdentifierPart ')' = false := by decide
    rw [hr, List.singleton_append, takeWhile_stop hpart hparen, dropWhile_stop hpart hparen]
    simp [hne, stripPrefix?]

lemma calls_closing : "'))".toList = '\'' :: "))".toList := by decide

lemma member_closing : "').then((module) => module.".toList =
    '\'' :: ").then((module) => module.".toList := by decide

lemma stripPrefix?_append (part cs : List Char) : stripPrefix? part (part ++ cs) = some cs :=
  stripPrefix?_eq_some_iff.2 rfl

lemma stripPrefix?_of_head {part front : List Char} (cs : List Char)
    (h : (part.head?.isSome && front.head?.isSome && part.head? != front.head?) = true) :
    stripPrefix? part (front ++ cs) = none := by
  cases part with
  | nil => simp at h
  | cons a part =>
    cases front with
    | nil => simp at h
    | cons b front =>
      have hab : a ≠ b := by simpa using h
      rw [List.cons_append, stripPrefix?, if_neg hab]

lemma loader?_text {opening closing : List Char} (hl : IsLoader opening closing) (hne : source ≠ [])
    (hs : '\'' ∉ source) (rest : List Char) :
    loader? (opening ++ (source ++ (closing ++ rest))) = some (source, rest) := by
  have hcall : quotedSource? "'))" (source ++ ("'))".toList ++ rest)) = some (source, rest) :=
    (quotedSource?_eq_some_iff calls_closing).2 ⟨hne, hs, rfl⟩
  cases hl with
  | lazy =>
    have hlazy := stripPrefix?_append "lazy(() => import('".toList (source ++ ("'))".toList ++ rest))
    simp only [loader?, hlazy, hcall]
  | asyncComponent =>
    have hlazy : stripPrefix? "lazy(() => import('".toList
        ("defineAsyncComponent(() => import('".toList ++ (source ++ ("'))".toList ++ rest))) = none :=
      stripPrefix?_of_head _ (by decide)
    have hasync := stripPrefix?_append "defineAsyncComponent(() => import('".toList
      (source ++ ("'))".toList ++ rest))
    simp only [loader?, hlazy, hasync, hcall]
  | @member name hname_ne hname =>
    rw [List.append_assoc, List.append_assoc]
    have hsource : quotedSource? "').then((module) => module."
        (source ++ ("').then((module) => module.".toList ++ (name ++ ([')'] ++ rest)))) =
          some (source, name ++ ([')'] ++ rest)) :=
      (quotedSource?_eq_some_iff member_closing).2 ⟨hne, hs, rfl⟩
    generalize source ++ ("').then((module) => module.".toList ++ (name ++ ([')'] ++ rest))) =
      inside at hsource ⊢
    have hlazy : stripPrefix? "lazy(() => import('".toList ("() => import('".toList ++ inside) = none :=
      stripPrefix?_of_head _ (by decide)
    have hasync : stripPrefix? "defineAsyncComponent(() => import('".toList
        ("() => import('".toList ++ inside) = none := stripPrefix?_of_head _ (by decide)
    have hbare := stripPrefix?_append "() => import('".toList inside
    simp only [loader?, hlazy, hasync, hbare, hsource, Option.bind_some]
    exact loaderMember?_eq_some_iff.2 ⟨rfl, name, hname_ne, hname, rfl⟩

lemma exists_loader (h : loader? cs = some (source, rest)) : ∃ opening closing,
    IsLoader opening closing ∧ source ≠ [] ∧ '\'' ∉ source ∧
      cs = opening ++ (source ++ (closing ++ rest)) := by
  unfold loader? at h
  split at h
  · rename_i hstrip
    obtain ⟨hne, hs, rfl⟩ := (quotedSource?_eq_some_iff calls_closing).1 h
    exact ⟨_, _, .lazy, hne, hs, stripPrefix?_eq_some_iff.1 hstrip⟩
  · split at h
    · rename_i hstrip
      obtain ⟨hne, hs, rfl⟩ := (quotedSource?_eq_some_iff calls_closing).1 h
      exact ⟨_, _, .asyncComponent, hne, hs, stripPrefix?_eq_some_iff.1 hstrip⟩
    · split at h
      · rename_i hstrip
        obtain ⟨⟨source', after⟩, hquoted, hmember⟩ := Option.bind_eq_some_iff.1 h
        obtain ⟨hne, hs, rfl⟩ := (quotedSource?_eq_some_iff member_closing).1 hquoted
        obtain ⟨rfl, name, hname_ne, hname, rfl⟩ := loaderMember?_eq_some_iff.1 hmember
        refine ⟨_, _, .member hname_ne hname, hne, hs, ?_⟩
        rw [stripPrefix?_eq_some_iff.1 hstrip, List.append_assoc, List.append_assoc]
      · cases h

lemma lazyLineAt?_endsLines : EndsLines lazyLineAt? fun text v =>
    ∃ w : Wrapper, w.IsValid ∧ v = w.line ∧ text = w.text where
  shape all m h := by
    simp only [lazyLineAt?, Option.bind_eq_bind, Option.bind_eq_some_iff] at h
    obtain ⟨afterConst, hconst, h⟩ := h
    by_cases hname : isIdentifier (afterConst.takeWhile isIdentifierPart)
    swap
    · simp [hname] at h
    simp only [hname, Bool.not_true, Bool.false_eq_true, if_false, drop_takeWhile,
      Option.bind_eq_some_iff] at h
    obtain ⟨afterEquals, hequals, ⟨source, afterLoader⟩, hloader, afterSemicolon, hsemicolon, end',
      hend, h⟩ := h
    obtain ⟨opening, closing, hl, hne, hs, hsource⟩ := exists_loader hloader
    obtain ⟨margin, ending, hmargin, he, hafter⟩ := lineEnd?_cases hend
    obtain rfl := Option.some.inj h
    have hall : all = all.takeWhile isMargin ++ ("const ".toList ++ (afterConst.takeWhile
        isIdentifierPart ++ (" = ".toList ++ (opening ++ (source ++ (closing ++ ([';'] ++ (margin ++
          (ending ++ end'.rest))))))))) := by
      rw [← hafter, ← stripPrefix?_eq_some_iff.1 hsemicolon, ← hsource,
        ← stripPrefix?_eq_some_iff.1 hequals, List.takeWhile_append_dropWhile,
        ← stripPrefix?_eq_some_iff.1 hconst, List.takeWhile_append_dropWhile]
    obtain ⟨w, hw⟩ : ∃ w : Wrapper, w = ⟨all.takeWhile isMargin, afterConst.takeWhile
      isIdentifierPart, opening, source, closing, margin⟩ := ⟨_, rfl⟩
    have hvalid : w.IsValid := by
      rw [hw]
      exact ⟨fun c hc => List.mem_takeWhile_imp hc, hname, hl, hne, hs, hmargin⟩
    have htext : all = w.text ++ (ending ++ end'.rest) := by
      rw [hw]
      simpa [Wrapper.text, Wrapper.head, Wrapper.tail] using hall
    refine ⟨w.text, ending, ⟨w, hvalid, by rw [hw]; rfl, rfl⟩, he, ?_, htext⟩
    exact take_of_append (by rw [List.append_assoc, ← htext])
  text text v ending rest h he := by
    obtain ⟨w, hw, rfl, rfl⟩ := h
    generalize hall : w.text ++ (ending ++ rest) = all
    have hraw : all = (w.text ++ ending) ++ rest := by simp [← hall]
    have hname := (parts_of_isIdentifier hw.name).2
    have hspace : isIdentifierPart ' ' = false := by decide
    have hsplit : all = w.indent ++ 'c' :: ("onst ".toList ++ (w.name ++ ' ' :: ("= ".toList ++
        (w.opening ++ (w.source ++ (w.closing ++ ([';'] ++ (w.margin ++ (ending ++ rest))))))))) := by
      rw [← hall]
      simp [Wrapper.text, Wrapper.head, Wrapper.tail]
    have hindent : all.takeWhile isMargin = w.indent := by
      rw [hsplit, takeWhile_stop hw.indent rfl]
    have hconst : stripPrefix? "const ".toList (all.dropWhile isMargin) = some (w.name ++ ' ' ::
        ("= ".toList ++ (w.opening ++ (w.source ++ (w.closing ++ ([';'] ++ (w.margin ++ (ending ++
          rest)))))))) := by
      rw [hsplit, dropWhile_stop hw.indent rfl]
      exact stripPrefix?_eq_some_iff.2 rfl
    have hequals : ∀ cs, stripPrefix? " = ".toList (' ' :: ("= ".toList ++ cs)) = some cs :=
      fun cs => stripPrefix?_eq_some_iff.2 rfl
    simp only [lazyLineAt?, hconst, hindent, Option.bind_eq_bind, Option.bind_some, drop_takeWhile,
      takeWhile_stop hname hspace, dropWhile_stop hname hspace, hw.name, hequals,
      loader?_text hw.loader hw.source_ne hw.source, stripPrefix?_append, lineEnd?_margin hw.margin he,
      take_of_append hraw, Bool.not_true, Bool.false_eq_true, if_false]
    rfl

/-! Every wrapper has two quotation marks, one on each side of its source. -/

lemma IsLoader.opening_counts {opening closing : List Char} (h : IsLoader opening closing) :
    opening.count '\'' = 1 ∧ '\n' ∉ opening := by
  cases h <;> decide

lemma IsLoader.closing_counts {opening closing : List Char} (h : IsLoader opening closing) :
    closing.count '\'' = 1 ∧ '\n' ∉ closing := by
  cases h with
  | lazy => decide
  | asyncComponent => decide
  | @member name _ hname =>
    have hno : ∀ c, isIdentifierPart c = false → c ∉ name := fun c hc hmem => by
      simpa [hc] using hname c hmem
    have hone : "').then((module) => module.".toList.count '\'' = 1 := by decide
    have hbreak : '\n' ∉ "').then((module) => module.".toList := by decide
    constructor
    · rw [List.count_append, List.count_append, hone, List.count_eq_zero.2 (hno '\'' (by decide))]
      rfl
    · simp only [List.mem_append, not_or]
      exact ⟨hbreak, hno '\n' (by decide), by decide⟩

lemma Wrapper.IsValid.head_counts (h : w.IsValid) : w.head.count '\'' = 1 ∧ '\n' ∉ w.head := by
  have hindent : ∀ c, isMargin c = false → c ∉ w.indent := fun c hc hmem => by
    simpa [hc] using h.indent c hmem
  have hname : ∀ c, isIdentifierPart c = false → c ∉ w.name := fun c hc =>
    notMem_of_isIdentifier h.name hc
  have hopening := h.loader.opening_counts
  have hcount : ∀ cs : List Char, '\'' ∉ cs → cs.count '\'' = 0 := fun cs => List.count_eq_zero.2
  constructor
  · rw [head, List.count_append, List.count_append, List.count_append, List.count_append,
      hcount _ (hindent '\'' rfl), hcount _ (hname '\'' (by decide)), hcount "const ".toList (by decide),
      hcount " = ".toList (by decide), hopening.1]
  · have hconst : '\n' ∉ "const ".toList := by decide
    have hequals : '\n' ∉ " = ".toList := by decide
    simp only [head, List.mem_append, not_or]
    exact ⟨hindent '\n' rfl, hconst, hname '\n' (by decide), hequals, hopening.2⟩

lemma Wrapper.IsValid.tail_counts (h : w.IsValid) : w.tail.count '\'' = 1 ∧ '\n' ∉ w.tail := by
  have hmargin : ∀ c, isMargin c = false → c ∉ w.margin := fun c hc hmem => by
    simpa [hc] using h.margin c hmem
  have hclosing := h.loader.closing_counts
  constructor
  · rw [tail, List.count_append, hclosing.1, List.count_cons_of_ne (by decide),
      List.count_eq_zero.2 (hmargin '\'' rfl)]
  · simp only [tail, List.mem_append, List.mem_cons, not_or]
    exact ⟨hclosing.2, by decide, hmargin '\n' rfl⟩

lemma Wrapper.IsValid.count_text (h : w.IsValid) : w.text.count '\'' = 2 := by
  rw [text, List.count_append, List.count_append, h.head_counts.1, h.tail_counts.1,
    List.count_eq_zero.2 h.source]

lemma Wrapper.IsValid.split (h : w.IsValid) (hbreak : '\n' ∈ w.text) : ∃ front back,
    w.text = front ++ '\n' :: back ∧ '\n' ∉ front ∧ front.count '\'' = 1 ∧
      back.count '\'' = 1 ∧ '\n' ∈ w.source := by
  have hsource : '\n' ∈ w.source := by
    simpa [text, h.head_counts.2, h.tail_counts.2] using hbreak
  obtain ⟨before, after, hsplit, hbefore⟩ := List.eq_append_cons_of_mem hsource
  have hquote := h.source
  rw [hsplit, List.mem_append, List.mem_cons, not_or, not_or] at hquote
  refine ⟨w.head ++ before, after ++ w.tail, by simp [text, hsplit], ?_, ?_, ?_, hsource⟩
  · simp [h.head_counts.2, hbefore]
  · rw [List.count_append, h.head_counts.1, List.count_eq_zero.2 hquote.1]
  · rw [List.count_append, h.tail_counts.1, List.count_eq_zero.2 hquote.2.2]

lemma lazyLineAt?_of_count {l : List Char} (h : l.count '\'' ≤ 1) : lazyLineAt? l = none := by
  cases hm : lazyLineAt? l with
  | none => rfl
  | some m =>
    obtain ⟨_, ending, ⟨w, hw, -, rfl⟩, -, -, rfl⟩ := lazyLineAt?_endsLines.shape l m hm
    rw [List.count_append, hw.count_text] at h
    omega

/-- At a line, a wrapper is found on it, or one whose source goes beyond it. -/
lemma lazyLineAt?_cases {l : List Char} (hl : IsLine l rest) :
    lazyLineAt? (l ++ rest) = (lazyLineAt? l).map (fun m => ⟨m.value, l, rest⟩) ∨
      ∃ w ending more, Wrapper.IsValid w ∧ '\n' ∈ w.text ∧ IsEnd ending more ∧
        l ++ rest = w.text ++ (ending ++ more) ∧
        lazyLineAt? (l ++ rest) = some ⟨w.line, w.text ++ ending, more⟩ := by
  have hinside : ∀ w ending more, Wrapper.IsValid w → l = w.text ++ (ending ++ more) →
      '\n' ∉ w.text := by
    intro w ending more hw hcs hmem
    obtain ⟨front, back, hsplit, hfront, -, hback, -⟩ := hw.split hmem
    rcases hl with ⟨body, hbody, rfl⟩ | ⟨-, hno, -⟩
    · rw [hsplit, List.append_assoc, List.cons_append] at hcs
      obtain ⟨-, hnil⟩ := break_unique hbody hfront hcs
      rw [eq_comm, List.append_eq_nil_iff] at hnil
      rw [hnil.1] at hback
      cases hback
    · exact hno (by rw [hcs]; simp [hmem])
  by_cases hspread : ∃ w ending more, Wrapper.IsValid w ∧ '\n' ∈ w.text ∧ IsEnd ending more ∧
      l ++ rest = w.text ++ (ending ++ more)
  · obtain ⟨w, ending, more, hw, hmem, he, hcs⟩ := hspread
    refine .inr ⟨w, ending, more, hw, hmem, he, hcs, ?_⟩
    rw [hcs]
    exact lazyLineAt?_endsLines.text w.text w.line ending more ⟨w, hw, rfl, rfl⟩ he
  · refine .inl (lazyLineAt?_endsLines.find?_line hl ?_)
    rintro more _ v ending rest' (rfl | rfl) ⟨w, hw, -, rfl⟩ he hcs hmem
    · exact hspread ⟨w, ending, rest', hw, hmem, he, hcs⟩
    · exact hinside w ending rest' hw (by simpa using hcs) hmem

/-- The lines that a wrapper is spread over hold no wrapper by themselves. -/
lemma exists_spread_lines {ls : List (List Char)} {more : List Char} (hls : AreLines ls)
    (hw : w.IsValid) (hbreak : '\n' ∈ w.text) (he : IsEnd ending more)
    (hcs : ls.flatten = w.text ++ (ending ++ more)) : ∃ front back, ls = front ++ back ∧ front ≠ [] ∧
      front.flatten = w.text ++ ending ∧ back.flatten = more ∧
      ∀ l ∈ front, lazyLineAt? l = none := by
  obtain ⟨first, last, hsplit, hfirst, hone, hrest, -⟩ := hw.split hbreak
  have hending : '\'' ∉ ending := by
    rcases he with rfl | ⟨rfl, -⟩ <;> decide
  have hlines : ls = codeLines (w.text ++ ending) ++ codeLines more := by
    rw [← hls.codeLines_flatten, hcs]
    rcases he with rfl | ⟨rfl, rfl⟩
    · exact codeLines_append_break w.text more
    · simp [codeLines]
  refine ⟨_, _, hlines, ?_, flatten_codeLines _, flatten_codeLines _, ?_⟩
  · rw [hsplit, List.append_assoc, List.cons_append, codeLines_break hfirst]
    exact List.cons_ne_nil _ _
  · intro l hl
    refine lazyLineAt?_of_count ?_
    rw [hsplit, List.append_assoc, List.cons_append, codeLines_break hfirst] at hl
    rcases List.mem_cons.1 hl with rfl | hl
    · rw [List.count_append, hone]
      decide
    · have hsub := (List.sublist_flatten_of_mem hl).count_le '\''
      rw [flatten_codeLines, List.count_append, hrest, List.count_eq_zero.2 hending] at hsub
      exact hsub

end Wrappers

section Places

variable {β : Type} {f : LazyLine × ℕ × ℕ → Option β}

lemma found_lazyLines (hf : ∀ v p, '\n' ∈ v.source.toList → f (v, p) = none) {ls : List (List Char)}
    (hls : AreLines ls) (start : ℕ) :
    (found start (pieces lazyLineAt? ls.flatten)).filterMap f =
      (places start ls).filterMap fun p => (lazyLineAt? p.1).bind fun m => f (m.value, p.2) := by
  induction hn : ls.length using Nat.strong_induction_on generalizing ls start with
  | _ n ih =>
    cases ls with
    | nil => simp [pieces, found, places]
    | cons l ls =>
      have hl := hls.isLine
      have hrest := ih ls.length (by rw [← hn]; exact Nat.lt_succ_self _) hls.tail
        (start + l.length) rfl
      rw [List.flatten_cons]
      rcases lazyLineAt?_cases hl with hline | ⟨w, ending, more, hw, hbreak, he, hcs, hfound⟩
      · rw [places, List.filterMap_cons]
        cases hm : lazyLineAt? l with
        | none =>
          rw [hm] at hline
          rw [pieces_plain hline hl.ne_nil hl.splitLine, found, hrest]
          rfl
        | some m =>
          rw [hm] at hline
          rw [pieces_found hline hl.ne_nil, found, List.filterMap_cons, hrest]
          rfl
      · obtain ⟨front, back, hsplit, hne, hfront, hback, hnone⟩ :=
          exists_spread_lines hls hw hbreak he hcs
        have hsource : '\n' ∈ w.line.source.toList := by
          obtain ⟨_, _, _, _, _, _, hmem⟩ := hw.split hbreak
          simpa [Wrapper.line] using hmem
        have hbackLines : AreLines back := by
          rw [hsplit] at hls
          exact hls.right
        have hshorter : back.length < n := by
          have hpos := List.length_pos_iff.2 hne
          rw [← hn, hsplit, List.length_append]
          omega
        have hnothing : ((places start front).filterMap fun p =>
            (lazyLineAt? p.1).bind fun m => f (m.value, p.2)) = [] := by
          refine List.filterMap_eq_nil_iff.2 fun p hp => ?_
          have hmem : p.1 ∈ front := by
            rw [← map_places start front]
            exact List.mem_map_of_mem hp
          rw [hnone p.1 hmem, Option.bind_none]
        rw [hsplit, places_append, List.filterMap_append, hnothing, hfront,
          ← ih back.length hshorter hbackLines _ rfl, hback, hcs, ← List.append_assoc]
        rw [hcs, ← List.append_assoc] at hfound
        have hraw : w.text ++ ending ≠ [] :=
          List.append_ne_nil_of_left_ne_nil (List.ne_nil_of_mem hbreak) ending
        rw [pieces_found hfound hraw, found, List.filterMap_cons, hf _ _ hsource]
        rfl

end Places

end ViewWriter.Script
