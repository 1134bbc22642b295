import Mathlib.Data.List.Chain
import ViewWriter.Proofs.Text.Pieces
import ViewWriter.Template.Token

/-! Tokens cover their source, and whether a tag is alone on its line shows in the tokens next to
it. -/

namespace ViewWriter.Template

open ViewWriter.Text

def raws (ts : List Token) : List Char := ts.flatMap fun t => t.raw.toList

def Token.isBlock : Token → Bool
  | .text _ _ => false
  | .tag t _ => t.isBlock

/-- What a token still shows of the source. -/
def Token.shown : Token → List Char
  | .text value _ => value.toList
  | .tag _ raw => raw.toList

/-- What precedes the next line break. -/
def lineAhead (cs : List Char) : List Char := cs.takeWhile (· != '\n')

/-- What follows the last line break, the last character first. -/
def lineBehind (cs : List Char) : List Char := lineAhead cs.reverse

/-- What precedes the next line break, and the break if there is one. -/
def lineTaken (cs : List Char) : List Char := lineAhead cs ++ (cs.dropWhile (· != '\n')).take 1

/-- Whether a block tag is alone on its line in a source with `before` before it and `after` after
it. Margins hold no braces, so no other tag is on the line either. -/
def isLone (before : List Char) (t : Token) (after : List Char) : Bool :=
  t.isBlock && (lineBehind before).all isMargin &&
    (lineAhead after).all fun c => isMargin c || c == '\r'

/-! Scanned tokens. -/

def IsMarker (t : Token) : Prop := ∃ inner, t.raw.toList = '\x7b' :: inner ++ ['\x7d']

/-- Tokens that show all of the source, with no two texts side by side that are not markers. -/
structure Scanned (ts : List Token) : Prop where
  shown : ∀ t ∈ ts, t.shown = t.raw.toList
  tag : ∀ t raw, .tag t raw ∈ ts → IsMarker (.tag t raw)
  chain : ts.IsChain fun a b => IsMarker a ∨ IsMarker b

@[simp] lemma raws_nil : raws [] = [] := rfl

@[simp] lemma raws_cons (t : Token) (ts : List Token) : raws (t :: ts) = t.raw.toList ++ raws ts :=
  List.flatMap_cons

@[simp] lemma raws_append (ts us : List Token) : raws (ts ++ us) = raws ts ++ raws us :=
  List.flatMap_append

lemma length_raws_concat (ts : List Token) (t : Token) :
    (raws (ts ++ [t])).length = (raws ts).length + t.raw.toList.length := by
  simp

@[simp] lemma Token.ofText_raw (cs : List Char) : (Token.ofText cs).raw.toList = cs := by
  simp [Token.ofText, Token.raw]

@[simp] lemma Token.ofBody_raw (body : List Char) :
    (Token.ofBody body).raw.toList = '\x7b' :: '\x7b' :: body ++ ['\x7d', '\x7d'] := by
  rw [Token.ofBody]
  cases Tag.ofBody? body <;> simp [Token.raw, marker]

lemma untilClose_eq {cs body rest : List Char} (h : untilClose cs = some (body, rest)) :
    cs = body ++ '\x7d' :: '\x7d' :: rest := by
  fun_induction untilClose cs generalizing body rest with
  | case1 r =>
    simp only [Option.some.injEq, Prod.mk.injEq] at h
    simp [← h.1, ← h.2]
  | case2 c r _ ih =>
    obtain ⟨⟨b, after⟩, hb, he⟩ := Option.map_eq_some_iff.1 h
    simp only [Prod.mk.injEq] at he
    rw [ih hb, ← he.1, ← he.2, List.cons_append]
  | case3 => cases h

lemma scan_end (passed : List Char) :
    scan passed [] = if passed.isEmpty then [] else [Token.ofText passed.reverse] := by
  rw [scan]

lemma scan_marker {passed rest body after : List Char} (h : untilClose rest = some (body, after)) :
    scan passed ('\x7b' :: '\x7b' :: rest) = scan passed [] ++ Token.ofBody body :: scan [] after := by
  rw [scan_end, scan]
  split
  · simp_all
  · simp_all

lemma scan_open {passed rest : List Char} (h : untilClose rest = none) :
    scan passed ('\x7b' :: '\x7b' :: rest) = scan ('\x7b' :: passed) ('\x7b' :: rest) := by
  rw [scan]
  split
  · simp_all
  · rfl

lemma scan_cons {passed rest : List Char} {c : Char}
    (h : ∀ more, c = '\x7b' → rest = '\x7b' :: more → False) :
    scan passed (c :: rest) = scan (c :: passed) rest := by
  rw [scan.eq_def]
  split
  · simp_all
  · simp_all

lemma raws_scan (passed cs : List Char) : raws (scan passed cs) = passed.reverse ++ cs := by
  induction passed, cs using scan.induct with
  | case1 passed =>
    rw [scan_end]
    cases passed <;> simp
  | case2 passed rest body after h ih =>
    have hpassed : raws (scan passed []) = passed.reverse := by
      rw [scan_end]
      cases passed <;> simp
    rw [scan_marker h, raws_append, raws_cons, hpassed, ih, untilClose_eq h]
    simp
  | case3 passed rest h ih => simp [scan_open h, ih]
  | case4 passed c rest h ih => simp [scan_cons h, ih]

lemma isMarker_ofBody (body : List Char) : IsMarker (Token.ofBody body) :=
  ⟨'\x7b' :: body ++ ['\x7d'], by simp⟩

lemma shown_ofBody (body : List Char) :
    (Token.ofBody body).shown = (Token.ofBody body).raw.toList := by
  rw [Token.ofBody]
  cases Tag.ofBody? body <;> rfl

lemma Scanned.nil : Scanned [] where
  shown _ h := by cases h
  tag _ _ h := by cases h
  chain := .nil

lemma Scanned.marker (body : List Char) {ts : List Token} (h : Scanned ts) :
    Scanned (.ofBody body :: ts) where
  shown t ht := by
    rcases List.mem_cons.1 ht with rfl | ht
    · exact shown_ofBody body
    · exact h.shown t ht
  tag t raw ht := by
    rcases List.mem_cons.1 ht with ht | ht
    · exact ht ▸ isMarker_ofBody body
    · exact h.tag t raw ht
  chain := by
    rw [List.isChain_cons]
    exact ⟨fun _ _ => .inl (isMarker_ofBody body), h.chain⟩

lemma Scanned.text (cs : List Char) {ts : List Token} (h : Scanned ts)
    (hts : ∀ t ∈ ts.head?, IsMarker t) : Scanned (.ofText cs :: ts) where
  shown t ht := by
    rcases List.mem_cons.1 ht with rfl | ht
    · rfl
    · exact h.shown t ht
  tag t raw ht := by
    rcases List.mem_cons.1 ht with ht | ht
    · cases ht
    · exact h.tag t raw ht
  chain := by
    rw [List.isChain_cons]
    exact ⟨fun t ht => .inr (hts t ht), h.chain⟩

lemma Scanned.passed (passed : List Char) {ts : List Token} (h : Scanned ts)
    (hts : ∀ t ∈ ts.head?, IsMarker t) : Scanned (scan passed [] ++ ts) := by
  rw [scan_end]
  cases passed with
  | nil => exact h
  | cons c passed => exact h.text _ hts

lemma scanned_scan (passed cs : List Char) : Scanned (scan passed cs) := by
  induction passed, cs using scan.induct with
  | case1 passed =>
    rw [← List.append_nil (scan passed [])]
    exact Scanned.nil.passed passed (by simp)
  | case2 passed rest body after h ih =>
    rw [scan_marker h]
    exact (ih.marker body).passed passed (by simp [isMarker_ofBody])
  | case3 passed rest h ih => rwa [scan_open h]
  | case4 passed c rest h ih => rwa [scan_cons h]

/-! Lines. -/

section Line

variable {cs ds : List Char}

lemma lineAhead_append (h : '\n' ∉ cs) (ds : List Char) :
    lineAhead (cs ++ ds) = cs ++ lineAhead ds :=
  List.takeWhile_append_of_pos fun c hc => by simpa using ne_of_mem_of_not_mem hc h

lemma lineAhead_of_notMem (h : '\n' ∉ cs) : lineAhead cs = cs := by
  simpa [lineAhead] using lineAhead_append h []

lemma lineAhead_break (h : '\n' ∉ cs) (ds : List Char) : lineAhead (cs ++ '\n' :: ds) = cs := by
  rw [lineAhead_append h, lineAhead, List.takeWhile_cons_of_neg (by simp), List.append_nil]

lemma lineAhead_append_of_mem (h : '\n' ∈ cs) (ds : List Char) :
    lineAhead (cs ++ ds) = lineAhead cs := by
  obtain ⟨front, back, rfl, hfront⟩ := List.eq_append_cons_of_mem h
  rw [List.append_assoc, List.cons_append, lineAhead_break hfront, lineAhead_break hfront]

lemma dropWhile_break (h : '\n' ∉ cs) (ds : List Char) :
    (cs ++ '\n' :: ds).dropWhile (· != '\n') = '\n' :: ds :=
  dropWhile_stop (fun c hc => by simpa using ne_of_mem_of_not_mem hc h) (by simp)

lemma dropWhile_of_notMem (h : '\n' ∉ cs) : cs.dropWhile (· != '\n') = [] :=
  List.dropWhile_eq_nil_iff.2 fun c hc => by simpa using ne_of_mem_of_not_mem hc h

lemma lineTaken_break (h : '\n' ∉ cs) (ds : List Char) :
    lineTaken (cs ++ '\n' :: ds) = cs ++ ['\n'] := by
  rw [lineTaken, lineAhead_break h, dropWhile_break h, List.take_succ_cons, List.take_zero]

lemma lineTaken_append_of_mem (h : '\n' ∈ cs) (ds : List Char) :
    lineTaken (cs ++ ds) = lineTaken cs := by
  obtain ⟨front, back, rfl, hfront⟩ := List.eq_append_cons_of_mem h
  rw [List.append_assoc, List.cons_append, lineTaken_break hfront, lineTaken_break hfront]

lemma lineTaken_append_afterFirstBreak (cs : List Char) : lineTaken cs ++ afterFirstBreak cs = cs := by
  rw [lineTaken, afterFirstBreak, List.append_assoc, List.take_append_drop, lineAhead,
    List.takeWhile_append_dropWhile]

lemma uptoLastBreak_append_lineBehind (cs : List Char) :
    uptoLastBreak cs ++ (lineBehind cs).reverse = cs := by
  rw [uptoLastBreak, lineBehind, lineAhead, ← List.reverse_append,
    List.takeWhile_append_dropWhile, List.reverse_reverse]

lemma lineTaken_length_le (cs : List Char) : (lineTaken cs).length ≤ cs.length := by
  have h := congrArg List.length (lineTaken_append_afterFirstBreak cs)
  rw [List.length_append] at h
  omega

lemma lineBehind_length_le (cs : List Char) : (lineBehind cs).length ≤ cs.length := by
  have h := congrArg List.length (uptoLastBreak_append_lineBehind cs)
  rw [List.length_append, List.length_reverse] at h
  omega

lemma lineBehind_break (cs ds : List Char) : lineBehind (cs ++ '\n' :: ds) = lineBehind ds := by
  rw [lineBehind, lineBehind, List.reverse_append, List.reverse_cons, List.append_assoc]
  by_cases h : '\n' ∈ ds.reverse
  · exact lineAhead_append_of_mem h _
  · rw [List.singleton_append, lineAhead_break h, lineAhead_of_notMem h]

lemma lineBehind_afterFirstBreak (h : afterFirstBreak cs ≠ []) :
    lineBehind (afterFirstBreak cs) = lineBehind cs := by
  by_cases hmem : '\n' ∈ cs
  · obtain ⟨front, back, rfl, hfront⟩ := List.eq_append_cons_of_mem hmem
    rw [afterFirstBreak, dropWhile_break hfront, List.drop_succ_cons, List.drop_zero,
      lineBehind_break]
  · rw [afterFirstBreak, dropWhile_of_notMem hmem, List.drop_nil] at h
    contradiction

end Line

/-! Lines across tokens. -/

/-- Through `f`, a marker begins with a character that is neither a line break nor accepted. -/
def Fences (f : Token → List Char) (p : Char → Bool) : Prop :=
  ∀ t, IsMarker t → ∃ c cs, f t = c :: cs ∧ c ≠ '\n' ∧ p c = false

section Fences

variable {f : Token → List Char} {p : Char → Bool} {t : Token} {ts : List Token}

lemma Fences.all_lineAhead_marker (h : Fences f p) (ht : IsMarker t) (ds : List Char) :
    (lineAhead (f t ++ ds)).all p = false := by
  obtain ⟨c, cs, hf, hc, hp⟩ := h t ht
  rw [hf, List.cons_append, lineAhead, List.takeWhile_cons_of_pos (by simpa using hc)]
  simp [hp]

/-- Whether the line ahead is accepted shows in the next token. -/
lemma Fences.all_lineAhead (h : Fences f p)
    (hts : (t :: ts).IsChain fun a b => IsMarker a ∨ IsMarker b) :
    (lineAhead ((t :: ts).flatMap f)).all p =
      ((lineAhead (f t)).all p && ((f t).contains '\n' || ts.isEmpty)) := by
  rw [List.flatMap_cons]
  by_cases hmem : '\n' ∈ f t
  · simp [lineAhead_append_of_mem hmem, hmem]
  cases ts with
  | nil => simp
  | cons u us =>
    have hright : ((f t).contains '\n' || (u :: us).isEmpty) = false := by simpa using hmem
    rw [hright, Bool.and_false]
    rcases (List.isChain_cons_cons.1 hts).1 with ht | hu
    · exact h.all_lineAhead_marker ht _
    · rw [lineAhead_append hmem, List.all_append, List.flatMap_cons, h.all_lineAhead_marker hu,
        Bool.and_false]

lemma Fences.mem_or_eq_nil (h : Fences f p)
    (hts : (t :: ts).IsChain fun a b => IsMarker a ∨ IsMarker b)
    (hall : (lineAhead ((t :: ts).flatMap f)).all p = true) :
    ¬IsMarker t ∧ ('\n' ∈ f t ∨ ts = []) := by
  refine ⟨fun ht => ?_, ?_⟩
  · rw [List.flatMap_cons, h.all_lineAhead_marker ht] at hall
    cases hall
  · rw [h.all_lineAhead hts] at hall
    simpa using (Bool.and_eq_true_iff.1 hall).2

lemma Fences.lineAhead_eq (h : Fences f p)
    (hts : (t :: ts).IsChain fun a b => IsMarker a ∨ IsMarker b)
    (hall : (lineAhead ((t :: ts).flatMap f)).all p = true) :
    lineAhead ((t :: ts).flatMap f) = lineAhead (f t) := by
  rw [List.flatMap_cons]
  rcases (h.mem_or_eq_nil hts hall).2 with hmem | rfl
  · exact lineAhead_append_of_mem hmem _
  · rw [List.flatMap_nil, List.append_nil]

lemma Fences.lineTaken_eq (h : Fences f p)
    (hts : (t :: ts).IsChain fun a b => IsMarker a ∨ IsMarker b)
    (hall : (lineAhead ((t :: ts).flatMap f)).all p = true) :
    lineTaken ((t :: ts).flatMap f) = lineTaken (f t) := by
  rw [List.flatMap_cons]
  rcases (h.mem_or_eq_nil hts hall).2 with hmem | rfl
  · exact lineTaken_append_of_mem hmem _
  · rw [List.flatMap_nil, List.append_nil]

end Fences

lemma fences_ahead : Fences (fun t => t.raw.toList) fun c => isMargin c || c == '\r' := by
  rintro t ⟨inner, ht⟩
  exact ⟨'\x7b', inner ++ ['\x7d'], ht, by decide, by decide⟩

lemma fences_behind : Fences (fun t => t.raw.toList.reverse) isMargin := by
  rintro t ⟨inner, ht⟩
  exact ⟨'\x7d', inner.reverse ++ ['\x7b'], by simp [ht], by decide, by decide⟩

lemma reverse_raws (ts : List Token) :
    (raws ts).reverse = ts.reverse.flatMap fun t => t.raw.toList.reverse := by
  induction ts with
  | nil => rfl
  | cons t ts ih => simp [ih]

/-! The tags that are alone, told from the tokens next to them. -/

lemma Scanned.tail {t : Token} {ts : List Token} (h : Scanned (t :: ts)) : Scanned ts where
  shown u hu := h.shown u (List.mem_cons_of_mem t hu)
  tag u raw hu := h.tag u raw (List.mem_cons_of_mem t hu)
  chain := h.chain.tail

lemma Scanned.right {ts us : List Token} (h : Scanned (ts ++ us)) : Scanned us := by
  induction ts with
  | nil => exact h
  | cons t ts ih => exact ih h.tail

lemma Scanned.reverse {ts : List Token} (h : Scanned ts) : Scanned ts.reverse where
  shown t ht := h.shown t (List.mem_reverse.1 ht)
  tag t raw ht := h.tag t raw (List.mem_reverse.1 ht)
  chain := by
    rw [List.isChain_reverse]
    exact h.chain.imp fun _ _ hab => hab.symm

lemma Scanned.left {ts us : List Token} (h : Scanned (ts ++ us)) : Scanned ts.reverse := by
  have hr := h.reverse
  rw [List.reverse_append] at hr
  exact hr.right

lemma endsLine_eq {ts : List Token} (h : Scanned ts) :
    endsLine ts = (lineAhead (raws ts)).all fun c => isMargin c || c == '\r' := by
  cases ts with
  | nil => rfl
  | cons t ts =>
    cases t with
    | text value raw =>
      have hvalue : value.toList = raw.toList := h.shown _ List.mem_cons_self
      rw [raws, fences_ahead.all_lineAhead h.chain, endsLine, hvalue]
      rfl
    | tag t raw =>
      exact (fences_ahead.all_lineAhead_marker (h.tag t raw List.mem_cons_self) (raws ts)).symm

lemma startsLine_eq {ts : List Token} (h : Scanned ts) :
    startsLine ts = (lineAhead (ts.flatMap fun t => t.raw.toList.reverse)).all isMargin := by
  cases ts with
  | nil => rfl
  | cons t ts =>
    cases t with
    | text value raw =>
      have hvalue : value.toList = raw.toList := h.shown _ List.mem_cons_self
      rw [fences_behind.all_lineAhead h.chain, startsLine, hvalue, Token.raw, List.contains_reverse]
      rfl
    | tag t raw =>
      rw [List.flatMap_cons, fences_behind.all_lineAhead_marker (h.tag t raw List.mem_cons_self)]
      rfl

lemma isAlone_eq {before after : List Token} {t : Token} (h : Scanned (before ++ t :: after))
    (more : List Token) :
    isAlone (t :: more) before.reverse after = isLone (raws before) t (raws after) := by
  cases t with
  | text value raw => rfl
  | tag t raw =>
    rw [isAlone, startsLine_eq h.left, endsLine_eq h.right.tail, isLone, lineBehind, reverse_raws]
    rfl

end ViewWriter.Template
