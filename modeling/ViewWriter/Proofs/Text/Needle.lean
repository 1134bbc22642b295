import ViewWriter.Proofs.Text.Tidying
import ViewWriter.Text.Markup

/-! Texts that avoid a needle, a word with a slash after its first character. Put together, two of
them avoid it if one ends or the other begins with a character that no word has. -/

namespace ViewWriter.Text

/-- Characters that stand outside names, paths and file names. -/
def isStop (c : Char) : Bool := !(isIdentifierPart c || c == '.' || c == '-' || c == '/')

/-- Characters other than the slash with which no needle begins. -/
def isPlain (c : Char) : Bool := c != '/' && c != '.' && c != '<'

/-- A stop and plain characters after it, which keep the texts on both sides apart. -/
def isGap (cs : List Char) : Bool := cs.head?.any isStop && cs.all isPlain

/-- The word at the end of a text and the character before it do not have the character `head` with a
slash after it. -/
def isSettled (head : Char) (cs : List Char) : Bool :=
  !hasPart ['/', head] (cs.reverse.take ((cs.reverse.takeWhile (!isStop ·)).length + 1))

/-- A word to look for in folded texts. -/
structure Needle where
  fold : Char → Char
  head : Char
  rest : List Char
  head_not_plain : isPlain head = false
  head_ne : head ≠ '/'
  eq_head : ∀ c, fold c = head → c = head
  eq_slash : ∀ c, fold c = '/' → c = '/'
  not_stop : ∀ c, fold c ∈ rest → isStop c = false

namespace Needle

def tail (n : Needle) : List Char := '/' :: n.rest

def text (n : Needle) : List Char := n.head :: n.tail

def Avoids (n : Needle) (cs : List Char) : Prop := ¬ n.text <:+: cs.map n.fold

/-- The text goes on like the needle after its first character. -/
def Continues (n : Needle) (cs : List Char) : Prop := n.tail <+: cs.map n.fold

/-- The needle does not lie over the end of the one text and the start of the other. -/
def Apart (n : Needle) (cs ds : List Char) : Prop :=
  ∀ x y, n.text = x ++ y → x ≠ [] → y ≠ [] → x <:+ cs.map n.fold → ¬ y <+: ds.map n.fold

/-- A text that can stand before all that avoids the needle. -/
def Leads (n : Needle) (cs : List Char) : Prop := ∀ ds, n.Avoids ds → n.Avoids (cs ++ ds)

variable {n : Needle} {cs ds between : List Char} {c : Char}

lemma not_mem_tail (n : Needle) {c : Char} (h : isStop c = true) : n.fold c ∉ n.tail := by
  rw [tail, List.mem_cons, not_or]
  refine ⟨fun hc => ?_, fun hc => ?_⟩
  · rw [n.eq_slash c hc] at h
    exact absurd h (by decide)
  · rw [n.not_stop c hc] at h
    cases h

/-! Two texts. -/

lemma eq_append_cases {x y : List Char} (h : n.text = x ++ y) (hx : x ≠ []) :
    ∃ more, x = n.head :: more ∧ n.tail = more ++ y := by
  obtain ⟨c, more, rfl⟩ := List.exists_cons_of_ne_nil hx
  obtain ⟨rfl, htail⟩ := List.cons.inj h
  exact ⟨more, rfl, htail⟩

lemma apart_of_head (h : ∀ c ∈ ds.head?, n.fold c ∉ n.tail) : n.Apart cs ds := by
  intro x y htext hx hy _ hprefix
  obtain ⟨more, -, htail⟩ := eq_append_cases htext hx
  cases ds with
  | nil => exact hy (List.prefix_nil.1 hprefix)
  | cons d ds =>
    obtain ⟨e, y, rfl⟩ := List.exists_cons_of_ne_nil hy
    obtain ⟨rfl, -⟩ := List.cons_prefix_cons.1 hprefix
    refine h d List.head?_cons ?_
    rw [htail]
    exact List.mem_append_right more List.mem_cons_self

lemma apart_of_stop (h : ∀ c ∈ ds.head?, isStop c = true) : n.Apart cs ds :=
  apart_of_head fun c hc => n.not_mem_tail (h c hc)

lemma apart_of_settled (hs : isSettled n.head cs = true)
    (h : cs.getLast? = some n.head → ¬ n.Continues ds) : n.Apart cs ds := by
  intro x y htext hx hy hsuffix hprefix
  obtain ⟨more, rfl, htail⟩ := eq_append_cases htext hx
  obtain ⟨front, hfront⟩ := hsuffix
  obtain ⟨before, after, rfl, -, hafter⟩ := List.map_eq_append_iff.1 hfront.symm
  obtain ⟨c, last, rfl, hc, hlast⟩ := List.map_eq_cons_iff.1 hafter
  obtain rfl := n.eq_head c hc
  cases more with
  | nil =>
    obtain rfl := List.map_eq_nil_iff.1 hlast
    refine h (by simp) ?_
    rw [Continues, htail]
    exact hprefix
  | cons d more =>
    obtain ⟨rfl, hrest⟩ := List.cons.inj htail
    obtain ⟨d, last, rfl, hd, rfl⟩ := List.map_eq_cons_iff.1 hlast
    obtain rfl := n.eq_slash d hd
    -- the slash and what follows it are part of the word at the end
    have hword : ∀ e ∈ last.reverse ++ ['/'], (!isStop e) = true := by
      intro e he
      rcases List.mem_append.1 he with he | he
      · have hmem : n.fold e ∈ n.rest :=
          hrest ▸ List.mem_append_left y (List.mem_map_of_mem (List.mem_reverse.1 he))
        rw [n.not_stop e hmem]
        rfl
      · rw [List.mem_singleton.1 he]
        decide
    have hreverse : (before ++ n.head :: '/' :: last).reverse =
        (last.reverse ++ ['/']) ++ n.head :: before.reverse := by
      simp
    rw [isSettled, Bool.not_eq_true', ← Bool.not_eq_true, hasPart_iff, hreverse,
      List.takeWhile_append_of_pos hword, List.length_append, Nat.add_assoc,
      List.take_length_add_append, List.take_succ_cons] at hs
    refine hs (List.infix_append_iff.2 (.inr (.inr ⟨['/'], [n.head], rfl, ?_, ?_⟩)))
    · exact List.suffix_append _ _
    · exact ⟨_, rfl⟩

lemma isSettled_of_notMem {head c : Char} (hc : c = '/' ∨ c = head) (h : c ∉ cs) :
    isSettled head cs = true := by
  rw [isSettled, Bool.not_eq_true', ← Bool.not_eq_true, hasPart_iff]
  intro hpart
  have hm : c ∈ ['/', head] := by simpa using hc
  exact h (List.mem_reverse.1 ((List.take_prefix _ _).subset (hpart.subset hm)))

lemma isSettled_of_stop {head c : Char} (hc : isStop c = true) (h : cs.getLast? = some c) :
    isSettled head cs = true := by
  obtain ⟨before, rfl⟩ := List.getLast?_eq_some_iff.1 h
  rw [isSettled, Bool.not_eq_true', ← Bool.not_eq_true, hasPart_iff, List.reverse_append]
  intro hpart
  have hlength := hpart.length_le
  simp [hc] at hlength

lemma avoids_nil : n.Avoids [] := fun h => by cases List.infix_nil.1 h

lemma Avoids.of_isInfix (h : n.Avoids ds) (hcs : cs <:+: ds) : n.Avoids cs :=
  fun hn => h (hn.trans (hcs.map n.fold))

lemma Avoids.append (hcs : n.Avoids cs) (hds : n.Avoids ds) (h : n.Apart cs ds) :
    n.Avoids (cs ++ ds) := by
  rw [Avoids, List.map_append, List.infix_append_iff]
  rintro (hn | hn | ⟨x, y, htext, hx, hy⟩)
  · exact hcs hn
  · exact hds hn
  · by_cases hxnil : x = []
    · rw [hxnil, List.nil_append] at htext
      exact hds (htext ▸ hy.isInfix)
    · by_cases hynil : y = []
      · rw [hynil, List.append_nil] at htext
        exact hcs (htext ▸ hx.isInfix)
      · exact h x y htext hxnil hynil hx hy

lemma Avoids.append_stop (hcs : n.Avoids cs) (hc : isStop c = true) (h : n.Avoids (c :: ds)) :
    n.Avoids (cs ++ c :: ds) :=
  hcs.append h (apart_of_stop fun _ hd => Option.some.inj hd ▸ hc)

lemma Avoids.cons (h : n.Avoids cs) (hc : c ≠ n.head) : n.Avoids (c :: cs) := by
  rw [Avoids, List.map_cons, List.infix_cons_iff]
  rintro (hn | hn)
  · exact hc (n.eq_head c (List.cons_prefix_cons.1 hn).1.symm)
  · exact h hn

lemma avoids_of_notMem_slash (h : '/' ∉ cs) : n.Avoids cs := by
  intro hn
  obtain ⟨c, hc, hslash⟩ := List.mem_map.1 (hn.subset (by simp [text, tail] : '/' ∈ n.text))
  exact h (n.eq_slash c hslash ▸ hc)

lemma avoids_of_notMem_head (h : n.head ∉ cs) : n.Avoids cs := by
  intro hn
  obtain ⟨c, hc, hhead⟩ := List.mem_map.1 (hn.subset (by simp [text] : n.head ∈ n.text))
  exact h (n.eq_head c hhead ▸ hc)

lemma avoids_singleton (n : Needle) (c : Char) : n.Avoids [c] := by
  by_cases hc : c = n.head
  · refine avoids_of_notMem_slash fun hm => n.head_ne ?_
    rw [← hc, List.mem_singleton.1 hm]
  · exact avoids_nil.cons hc

lemma not_continues_of_stop (h : ∀ c ∈ cs.head?, isStop c = true) : ¬ n.Continues cs := by
  cases cs with
  | nil => exact fun hn => by cases List.prefix_nil.1 hn
  | cons c cs =>
    intro hn
    refine n.not_mem_tail (h c List.head?_cons) ?_
    rw [← (List.cons_prefix_cons.1 hn).1]
    exact List.mem_cons_self

lemma not_continues_cons (h : c ≠ '/') : ¬ n.Continues (c :: cs) :=
  fun hn => h (n.eq_slash c (List.cons_prefix_cons.1 hn).1.symm)

/-- A stop after a text does not make it continue the needle. -/
lemma not_continues_append (hcs : ¬ n.Continues cs) (h : ∀ c ∈ ds.head?, isStop c = true) :
    ¬ n.Continues (cs ++ ds) := by
  intro hn
  rw [Continues, List.map_append] at hn
  rcases List.prefix_or_prefix_of_prefix hn (List.prefix_append _ _) with hshort | ⟨more, hmore⟩
  · exact hcs hshort
  · rw [← hmore, List.prefix_append_right_inj] at hn
    cases more with
    | nil =>
      rw [List.append_nil] at hmore
      rw [Continues, hmore] at hcs
      exact hcs List.prefix_rfl
    | cons e more =>
      cases ds with
      | nil => cases List.prefix_nil.1 hn
      | cons d ds =>
        obtain ⟨rfl, -⟩ := List.cons_prefix_cons.1 hn
        refine n.not_mem_tail (h d List.head?_cons) ?_
        rw [← hmore]
        exact List.mem_append_right _ List.mem_cons_self

/-! Texts with gaps in them. -/

lemma Avoids.leads (h : n.Avoids cs) (hs : isSettled n.head cs = true)
    (hlast : cs.getLast? ≠ some n.head) : n.Leads cs :=
  fun _ hds => h.append hds (apart_of_settled hs fun hl => absurd hl hlast)

lemma leads_of_plain (h : ∀ c ∈ cs, isPlain c = true) : n.Leads cs := by
  have hslash : '/' ∉ cs := fun hm => absurd (h _ hm) (by decide)
  refine (avoids_of_notMem_slash hslash).leads (isSettled_of_notMem (.inl rfl) hslash) fun hl => ?_
  have hhead := h _ (List.mem_of_getLast? hl)
  rw [n.head_not_plain] at hhead
  cases hhead

lemma head_notMem (h : cs.all (fun c => c == '/' || isPlain c) = true) : n.head ∉ cs := by
  intro hm
  have hc := List.all_eq_true.1 h _ hm
  rw [n.head_not_plain, Bool.or_false, beq_iff_eq] at hc
  exact n.head_ne hc

lemma leads_of_slashes (h : cs.all (fun c => c == '/' || isPlain c) = true) : n.Leads cs := by
  have hhead := head_notMem (n := n) h
  exact (avoids_of_notMem_head hhead).leads (isSettled_of_notMem (.inr rfl) hhead) fun hl =>
    hhead (List.mem_of_getLast? hl)

lemma leads_gap (h : isGap between = true) : n.Leads between :=
  leads_of_plain (List.all_eq_true.1 (Bool.and_eq_true_iff.1 h).2)

lemma Avoids.gap (hcs : n.Avoids cs) (hgap : isGap between = true) (hds : n.Avoids ds) :
    n.Avoids (cs ++ (between ++ ds)) := by
  refine hcs.append (leads_gap hgap ds hds) (apart_of_stop fun c hc => ?_)
  have hhead := (Bool.and_eq_true_iff.1 hgap).1
  cases between with
  | nil => cases hhead
  | cons d between =>
    obtain rfl : d = c := Option.some.inj hc
    exact hhead

lemma avoids_of_slashes (h : cs.all (fun c => c == '/' || isPlain c) = true) : n.Avoids cs :=
  avoids_of_notMem_head (head_notMem h)

lemma Avoids.preceded {s o : String} (hs : n.Avoids s.toList)
    (h : o.toList.all isPlain = true) : n.Avoids (o ++ s).toList := by
  rw [String.toList_append]
  exact leads_of_plain (List.all_eq_true.1 h) _ hs

lemma Avoids.joined {s m t : String} (hs : n.Avoids s.toList) (hm : isGap m.toList = true)
    (ht : n.Avoids t.toList) : n.Avoids (s ++ m ++ t).toList := by
  rw [String.toList_append, String.toList_append, List.append_assoc]
  exact hs.gap hm ht

lemma Avoids.followed {s e : String} (hs : n.Avoids s.toList)
    (h : isGap e.toList = true) : n.Avoids (s ++ e).toList := by
  rw [String.toList_append, ← List.append_nil e.toList]
  exact hs.gap h avoids_nil

lemma avoids_joinWith {pieces : List (List Char)} (hgap : isGap between = true)
    (h : ∀ piece ∈ pieces, n.Avoids piece) : n.Avoids (joinWith between pieces) := by
  induction pieces with
  | nil => exact avoids_nil
  | cons piece rest ih =>
    obtain ⟨hpiece, hrest⟩ := List.forall_mem_cons.1 h
    cases rest with
    | nil => simpa [joinWith] using hpiece
    | cons next rest =>
      rw [joinWith, intercalate_cons_ne (List.cons_ne_nil next rest)]
      exact hpiece.gap hgap (ih hrest)

/-- The second text is the first with gaps put in, or put in the place of characters. -/
inductive Escaped : List Char → List Char → Prop
  | nil : Escaped [] []
  | kept (c : Char) {cs ds : List Char} : Escaped cs ds → Escaped (c :: cs) (c :: ds)
  | added {gap cs ds : List Char} : isGap gap = true → Escaped cs ds → Escaped cs (gap ++ ds)
  | replaced (c : Char) {gap cs ds : List Char} :
      isGap gap = true → Escaped cs ds → Escaped (c :: cs) (gap ++ ds)

lemma not_prefix_gap {q : List Char} (hgap : isGap between = true) (hq : ∀ c ∈ q, c ∈ n.tail)
    (hne : q ≠ []) : ¬ q <+: (between ++ ds).map n.fold := by
  have hhead := (Bool.and_eq_true_iff.1 hgap).1
  intro h
  cases between with
  | nil => cases hhead
  | cons d between =>
    obtain ⟨e, q, rfl⟩ := List.exists_cons_of_ne_nil hne
    obtain ⟨rfl, -⟩ := List.cons_prefix_cons.1 h
    exact n.not_mem_tail hhead (hq _ List.mem_cons_self)

lemma Escaped.of_isPrefix (h : Escaped cs ds) {q : List Char} (hq : ∀ c ∈ q, c ∈ n.tail)
    (hstart : q <+: ds.map n.fold) : q <+: cs.map n.fold := by
  induction h generalizing q with
  | nil => exact hstart
  | kept c _ ih =>
    rw [List.map_cons, List.prefix_cons_iff] at hstart ⊢
    rcases hstart with rfl | ⟨more, rfl, hmore⟩
    · exact .inl rfl
    · exact .inr ⟨more, rfl, ih (fun e he => hq e (List.mem_cons_of_mem _ he)) hmore⟩
  | added hgap _ _ | replaced _ hgap _ _ =>
    by_cases hne : q = []
    · rw [hne]
      exact List.nil_prefix
    · exact absurd hstart (not_prefix_gap hgap hq hne)

lemma Avoids.escaped (hcs : n.Avoids cs) (h : Escaped cs ds) : n.Avoids ds := by
  induction h with
  | nil => exact hcs
  | @kept c cs ds h ih =>
    rw [Avoids, List.map_cons, List.infix_cons_iff]
    rintro (hn | hn)
    · obtain ⟨hhead, htail⟩ := List.cons_prefix_cons.1 hn
      refine hcs (List.IsPrefix.isInfix ?_)
      rw [text, List.map_cons, hhead]
      exact (List.prefix_cons_inj _).2 (h.of_isPrefix (fun _ he => he) htail)
    · exact ih (hcs.of_isInfix (List.suffix_cons c cs).isInfix) hn
  | added hgap _ ih => exact leads_gap hgap _ (ih hcs)
  | replaced c hgap _ ih => exact leads_gap hgap _ (ih (hcs.of_isInfix (List.suffix_cons c _).isInfix))

lemma escaped_flatMap {f : Char → List Char} (h : ∀ c, f c = [c] ∨ isGap (f c) = true)
    (cs : List Char) : Escaped cs (cs.flatMap f) := by
  induction cs with
  | nil => exact .nil
  | cons c cs ih =>
    rw [List.flatMap_cons]
    rcases h c with hc | hc
    · rw [hc]
      exact .kept c ih
    · exact .replaced c hc ih

/-! Lines. -/

lemma avoids_unlines {ls : List (List Char)} (h : ∀ l ∈ ls, n.Avoids l) : n.Avoids (unlines ls) :=
  avoids_joinWith (by decide) h

lemma Avoids.line (h : n.Avoids cs) {l : List Char} (hl : l ∈ lines cs) : n.Avoids l :=
  h.of_isInfix (infix_of_mem_splitOn hl)

lemma Avoids.markLines (h : n.Avoids cs) {mark : List Char} (hmark : n.Leads mark) :
    n.Avoids (markLines mark cs) := by
  refine avoids_unlines fun marked hmarked => ?_
  obtain ⟨l, hl, rfl⟩ := List.mem_map.1 hmarked
  split_ifs
  · exact h.line hl
  · exact hmark l (h.line hl)

lemma Avoids.trimEnd (h : n.Avoids cs) (p : Char → Bool) : n.Avoids (trimEnd p cs) := by
  rw [trimEnd_eq_rdropWhile]
  exact h.of_isInfix (List.rdropWhile_prefix p cs).isInfix

lemma Avoids.tidyChars (h : n.Avoids cs) : n.Avoids (tidyChars cs) := by
  have hkept : n.Avoids (unlines (collapse false ((lines cs).map (Text.trimEnd isBlank)))) := by
    refine avoids_unlines fun kept hkept => ?_
    rcases mem_of_mem_collapse hkept with rfl | hkept
    · exact avoids_nil
    · obtain ⟨l, hl, rfl⟩ := List.mem_map.1 hkept
      exact (h.line hl).trimEnd isBlank
  rw [Text.tidyChars]
  split
  · exact avoids_nil
  · rename_i body hbody
    exact (hkept.of_isInfix (trim_isInfix _)).append_stop (by decide) (avoids_of_notMem_slash (by decide))

lemma leads_spaces (i : ℤ) : n.Leads (spaces i) :=
  leads_of_plain fun c hc => by rw [(List.mem_replicate.1 hc).2]; decide

lemma Avoids.commentBlock (h : n.Avoids cs) (i : ℤ) : n.Avoids (commentBlock (spaces i) cs) := by
  have hclosed (text : List Char) (htext : text.all (fun c => c == '/' || isPlain c) = true) :
      n.Avoids (spaces i ++ text) :=
    leads_spaces i _ (avoids_of_notMem_head (head_notMem htext))
  refine avoids_unlines fun line hline => ?_
  rcases List.mem_append.1 hline with hline | hline
  · rcases List.mem_cons.1 hline with rfl | hline
    · exact hclosed _ (by decide)
    · obtain ⟨l, hl, rfl⟩ := List.mem_map.1 hline
      rw [List.append_assoc]
      exact (leads_spaces i _ (leads_of_plain (List.all_eq_true.1 (by decide)) l (h.line hl))).trimEnd isBlank
  · rw [List.mem_singleton.1 hline]
    exact hclosed _ (by decide)

/-! Entities. They have no opening angle bracket. -/

/-- The text can stand where it is escaped: it avoids the needle, or the needle cannot be written
there. -/
def Escapable (n : Needle) (cs : List Char) : Prop := n.head = '<' ∨ n.Avoids cs

structure IsEntity (f : Char → List Char) : Prop where
  cases : ∀ c, f c = [c] ∨ isGap (f c) = true
  angle : ∀ c, '<' ∉ f c

lemma isEntity_content : IsEntity contentEntity where
  cases c := by unfold contentEntity; split <;> first | exact .inr (by decide) | exact .inl rfl
  angle c := by
    unfold contentEntity
    split
    · decide
    · decide
    · decide
    · rename_i hc _
      exact fun hm => hc (List.mem_singleton.1 hm).symm

lemma isEntity_attribute : IsEntity attributeEntity where
  cases c := by
    unfold attributeEntity
    split
    · exact .inr (by decide)
    · exact isEntity_content.cases c
  angle c := by
    unfold attributeEntity
    split
    · decide
    · exact isEntity_content.angle c

lemma isEntity_quoted : IsEntity quotedEntity where
  cases c := by
    unfold quotedEntity
    split
    · exact .inr (by decide)
    · exact isEntity_attribute.cases c
  angle c := by
    unfold quotedEntity
    split
    · decide
    · exact isEntity_attribute.angle c

lemma isEntity_braced : IsEntity bracedEntity where
  cases c := by
    unfold bracedEntity
    split
    · exact .inr (by decide)
    · exact .inr (by decide)
    · exact isEntity_content.cases c
  angle c := by
    unfold bracedEntity
    split
    · decide
    · decide
    · exact isEntity_content.angle c

lemma IsEntity.avoids {f : Char → List Char} (hf : IsEntity f) {s : String}
    (h : n.Escapable s.toList) : n.Avoids (mapChars f s).toList := by
  rw [mapChars, String.toList_ofList]
  rcases h with hhead | h
  · refine avoids_of_notMem_head fun hm => ?_
    obtain ⟨c, -, hc⟩ := List.mem_flatMap.1 hm
    exact hf.angle c (hhead ▸ hc)
  · exact h.escaped (escaped_flatMap hf.cases _)

end Needle

end ViewWriter.Text
