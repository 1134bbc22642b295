import Mathlib.Data.List.Count
import ViewWriter.Proofs.Name.Case
import ViewWriter.Proofs.Name.Characters
import ViewWriter.Proofs.Text.Occurrences

/-! Needles that main files are searched for: references to a stylesheet next to a file, which are a
point, a slash and the name of the stylesheet, and tags that close a script. A name has no points, so
that few texts with names in them can have such a reference. Tags are looked for in small and in capital
letters, and the small form of a text has none that the text does not have. -/

namespace ViewWriter.Text.Needle

variable {n : Needle} {cs ds base : List Char}

/-- A reference to the stylesheet with the name `base`. -/
def stylesheet (base : List Char) (h : ∀ c ∈ base, isStop c = false) : Needle where
  fold := id
  head := '.'
  rest := base ++ ".css".toList
  head_not_plain := by decide
  head_ne := by decide
  eq_head _ hc := hc
  eq_slash _ hc := hc
  not_stop c hc := by
    rcases List.mem_append.1 hc with hc | hc
    · exact h _ hc
    · have hextension : ".css".toList.all (!isStop ·) = true := by decide
      simpa using List.all_eq_true.1 hextension _ hc

lemma avoids_of_count (h : cs.count n.head < n.text.count n.head) : n.Avoids cs := by
  intro hn
  have hfold : (cs.map n.fold).count n.head ≤ cs.count n.head := by
    rw [List.count, List.countP_map]
    exact List.countP_mono_left fun c _ hc => beq_iff_eq.2 (n.eq_head c (beq_iff_eq.1 hc))
  exact absurd (hn.sublist.count_le n.head) (by omega)

section Stylesheets

variable {h : ∀ c ∈ base, isStop c = false}

lemma avoids_stylesheet_iff :
    (stylesheet base h).Avoids cs ↔ ¬ "./".toList ++ base ++ ".css".toList <:+: cs := by
  rw [Avoids, show cs.map (stylesheet base h).fold = cs from List.map_id cs,
    show (stylesheet base h).text = "./".toList ++ base ++ ".css".toList by
      simp [text, tail, stylesheet]]

lemma count_stylesheet : (stylesheet base h).text.count '.' = base.count '.' + 2 := by
  simp [text, tail, stylesheet]

lemma avoids_named {name : String} (hname : Name.IsNamed name) :
    (stylesheet base h).Avoids ("./" ++ name).toList := by
  refine avoids_of_count ?_
  change ("./" ++ name).toList.count '.' < (stylesheet base h).text.count '.'
  have hpoint : name.toList.count '.' = 0 := List.count_eq_zero.2 hname.point_notMem
  rw [count_stylesheet, String.toList_append, List.count_append, hpoint]
  simp

lemma avoids_component (hbase : '.' ∈ base) {name : String} (hname : Name.IsNamed name) :
    (stylesheet base h).Avoids ("./" ++ name ++ ".component").toList := by
  refine avoids_of_count ?_
  change ("./" ++ name ++ ".component").toList.count '.' < (stylesheet base h).text.count '.'
  have hpoint : name.toList.count '.' = 0 := List.count_eq_zero.2 hname.point_notMem
  have hpoints : 0 < base.count '.' := List.count_pos_iff.2 hbase
  rw [count_stylesheet, String.toList_append, String.toList_append, List.count_append,
    List.count_append, hpoint]
  simpa using hpoints

lemma Avoids.hyphened (hcs : (stylesheet base h).Avoids cs) (hds : '.' ∉ ds ∧ '/' ∉ ds) :
    (stylesheet base h).Avoids (cs ++ '-' :: ds) := by
  have hrest : (stylesheet base h).Avoids ('-' :: ds) := by
    refine avoids_of_notMem_slash ?_
    rw [List.mem_cons, not_or]
    exact ⟨by decide, hds.2⟩
  refine hcs.append hrest fun x y htext hx hy _ hprefix => ?_
  obtain ⟨c, y, rfl⟩ := List.exists_cons_of_ne_nil hy
  rw [show ('-' :: ds).map (stylesheet base h).fold = '-' :: ds from List.map_id _] at hprefix
  obtain ⟨rfl, hmore⟩ := List.cons_prefix_cons.1 hprefix
  have hsuffix : y <:+ (stylesheet base h).text := ⟨x ++ ['-'], by rw [htext]; simp⟩
  have hextension : ".css".toList <:+ (stylesheet base h).text :=
    ⟨"./".toList ++ base, by simp [text, tail, stylesheet]⟩
  have hhyphen : '-' :: y <:+ (stylesheet base h).text := ⟨x, htext.symm⟩
  -- the end of the name has no hyphen, so that its point comes after every hyphen
  rcases List.suffix_or_suffix_of_suffix hextension hhyphen with hshort | hlong
  · rcases List.suffix_cons_iff.1 hshort with heq | hshort
    · exact absurd (heq ▸ List.mem_cons_self : '-' ∈ ".css".toList) (by decide)
    · exact hds.1 (hmore.subset (hshort.subset (by decide : '.' ∈ ".css".toList)))
  · exact absurd (hlong.subset List.mem_cons_self) (by decide)

end Stylesheets

end ViewWriter.Text.Needle

namespace ViewWriter.Text

/-- The text has the beginning of a tag that closes a script, in whatever letters. -/
def ClosesScript (text : String) : Prop := "</script".toList <:+: text.toList.map asciiLower

instance (text : String) : Decidable (ClosesScript text) := inferInstanceAs (Decidable (_ <:+: _))

/-- The number of places of a text where a tag begins that closes a script. -/
def closingTags (text : String) : ℕ :=
  occurrences asciiLower "</script".toList text.toList

namespace Needle

/-- The beginning of a tag that closes a script. -/
def scriptEnd : Needle where
  fold := asciiLower
  head := '<'
  rest := "script".toList
  head_not_plain := by decide
  head_ne := by decide
  eq_head c hc := by
    cases hupper : isAsciiUpper c with
    | true =>
      exact absurd hc (Name.of_upper (P := fun c => asciiLower c ≠ '<') (by decide) hupper)
    | false => rwa [Name.asciiLower_of_not_upper hupper] at hc
  eq_slash c hc := by
    cases hupper : isAsciiUpper c with
    | true =>
      exact absurd hc (Name.of_upper (P := fun c => asciiLower c ≠ '/') (by decide) hupper)
    | false => rwa [Name.asciiLower_of_not_upper hupper] at hc
  not_stop c hc := by
    cases hupper : isAsciiUpper c with
    | true => exact Name.of_upper (P := fun c => isStop c = false) (by decide) hupper
    | false =>
      rw [Name.asciiLower_of_not_upper hupper] at hc
      have hword : "script".toList.all (!isStop ·) = true := by decide
      simpa using List.all_eq_true.1 hword c hc

lemma avoids_scriptEnd_iff {text : String} :
    scriptEnd.Avoids text.toList ↔ ¬ ClosesScript text := Iff.rfl

lemma count_scriptEnd (text : String) : scriptEnd.count text.toList = closingTags text := rfl

lemma closingTags_eq_zero_iff {text : String} : closingTags text = 0 ↔ ¬ ClosesScript text := by
  rw [← count_scriptEnd, count_eq_zero_iff, avoids_scriptEnd_iff]

lemma closingTags_tidy (text : String) : closingTags (tidy text) = closingTags text := by
  rw [← count_scriptEnd, ← count_scriptEnd, tidy, String.toList_ofList]
  exact scriptEnd.isUnbroken.tidyChars text.toList

lemma closingTags_around (before after : String) :
    closingTags (before ++ "</script>\n" ++ after) = closingTags before + 1 + closingTags after := by
  have htag : AtLineStart "</script>\n".toList := .inr ⟨"</script>".toList, rfl⟩
  have hone : scriptEnd.count "</script>\n".toList = 1 := by decide
  rw [← count_scriptEnd, String.toList_append, String.toList_append, List.append_assoc,
    show "</script>\n".toList ++ after.toList = '<' :: ("/script>\n".toList ++ after.toList) from rfl,
    count_append_stop (by decide), ← List.cons_append, show '<' :: "/script>\n".toList =
      "</script>\n".toList from rfl, count_append_of_atLineStart htag, hone, count_scriptEnd,
    count_scriptEnd, Nat.add_assoc]

/-! Small forms. Beyond ASCII only the dotted capital letter has a small form with a letter of the tag,
and there a dot comes after that letter. -/

lemma asciiLower_notMem {d : Char} (h : d.toNat = 0 ∨ 128 ≤ d.toNat) :
    asciiLower d ∉ scriptEnd.text := by
  have hupper : isAsciiUpper d = false := by
    rw [← Bool.not_eq_true]
    intro hd
    have hcode := Name.of_upper (P := fun c => c.toNat ≠ 0 ∧ c.toNat < 128) (by decide) hd
    omega
  rw [Name.asciiLower_of_not_upper hupper]
  intro hd
  have hcodes : scriptEnd.text.all (fun c => c.toNat != 0 && decide (c.toNat < 128)) = true := by decide
  have hcode := List.all_eq_true.1 hcodes d hd
  simp only [Bool.and_eq_true, bne_iff_ne, decide_eq_true_eq] at hcode
  omega

lemma asciiLower_ofNat_notMem {k : ℕ} (h : 128 ≤ k) : asciiLower (Char.ofNat k) ∉ scriptEnd.text := by
  refine asciiLower_notMem ?_
  by_cases hk : k.isValidChar
  · rw [Char.ofNat, dif_pos hk]
    exact .inr h
  · rw [Char.ofNat, dif_neg hk]
    exact .inl rfl

lemma smallForm_cases (c : Char) :
    smallForm c = [asciiLower c] ∨ smallForm c = ['i', '\u0307'] ∨
      ∃ d, smallForm c = [d] ∧ asciiLower d ∉ scriptEnd.text := by
  rw [smallForm]
  split_ifs with hascii
  · exact .inl rfl
  · refine .inr ?_
    rw [caseForm]
    split
    · rename_i k codes hfind
      obtain ⟨rfl, rfl⟩ : k = 304 ∧ codes = [105, 775] := by
        simpa [Table.smallSequences] using List.mem_of_find?_eq_some hfind
      exact .inl rfl
    · split
      · rename_i k hfind
        obtain ⟨r, hr, himage⟩ := List.exists_of_findSome?_eq_some hfind
        have hruns : ∀ r ∈ Table.smallRuns, 128 ≤ r.target ∨
            r.first = r.last ∧ asciiLower (Char.ofNat r.target) ∉ scriptEnd.text := by
          decide +kernel
        obtain ⟨hbounds, himage⟩ := Option.ite_none_right_eq_some.1 himage
        cases himage
        refine .inr ⟨_, rfl, ?_⟩
        rcases hruns r hr with htarget | ⟨hone, htarget⟩
        · exact asciiLower_ofNat_notMem (by omega)
        · rwa [show r.target + (c.toNat - r.first) = r.target by omega]
      · refine .inr ⟨c, rfl, asciiLower_notMem (.inr ?_)⟩
        simpa [isAscii] using hascii

lemma lowerAfter_cons (before : List Char) (c : Char) (rest : List Char) : ∃ small,
    lowerAfter before (c :: rest) = small ++ lowerAfter (c :: before) rest ∧
      (small = [asciiLower c] ∨ small = ['i', '\u0307'] ∨
        ∃ d, small = [d] ∧ asciiLower d ∉ scriptEnd.text) := by
  rw [lowerAfter]
  refine ⟨_, rfl, ?_⟩
  split_ifs
  · exact .inr (.inr ⟨_, rfl, by decide⟩)
  · exact .inr (.inr ⟨_, rfl, by decide⟩)
  · exact smallForm_cases c

lemma asciiLower_twice (c : Char) : asciiLower (asciiLower c) = asciiLower c := by
  cases hupper : isAsciiUpper c with
  | true => exact Name.of_upper (P := fun c => asciiLower (asciiLower c) = asciiLower c) (by decide) hupper
  | false => rw [Name.asciiLower_of_not_upper hupper, Name.asciiLower_of_not_upper hupper]

/-- An end of the tag with which the small form begins is one with which the text begins. -/
lemma prefix_of_lowerAfter {before cs q : List Char} (hq : q <:+ scriptEnd.text)
    (h : q <+: (lowerAfter before cs).map asciiLower) : q <+: cs.map asciiLower := by
  induction cs generalizing before q with
  | nil => exact h
  | cons c rest ih =>
    obtain ⟨small, hsmall, hcases⟩ := lowerAfter_cons before c rest
    rw [hsmall] at h
    cases q with
    | nil => exact List.nil_prefix
    | cons e q =>
      have hmem : e ∈ scriptEnd.text := hq.subset List.mem_cons_self
      have hend : q <:+ scriptEnd.text := (List.suffix_cons e q).trans hq
      rcases hcases with rfl | rfl | ⟨d, rfl, hd⟩
      · obtain ⟨rfl, hmore⟩ := List.cons_prefix_cons.1 h
        rw [asciiLower_twice]
        exact (List.prefix_cons_inj _).2 (ih hend hmore)
      · obtain ⟨rfl, hmore⟩ := List.cons_prefix_cons.1 h
        cases q with
        | nil => exact absurd hq (by decide)
        | cons e q =>
          obtain ⟨rfl, -⟩ := List.cons_prefix_cons.1 hmore
          exact absurd (hend.subset List.mem_cons_self) (by decide)
      · exact absurd ((List.cons_prefix_cons.1 h).1 ▸ hmem) hd

lemma Avoids.lowerAfter {cs : List Char} (h : scriptEnd.Avoids cs) (before : List Char) :
    scriptEnd.Avoids (lowerAfter before cs) := by
  induction cs generalizing before with
  | nil => exact avoids_nil
  | cons c rest ih =>
    have hrest := ih (h.of_isInfix (List.suffix_cons c rest).isInfix) (c :: before)
    obtain ⟨small, hsmall, hcases⟩ := lowerAfter_cons before c rest
    rcases hcases with rfl | rfl | ⟨d, rfl, hd⟩
    · rw [Avoids, hsmall, List.singleton_append, List.map_cons, List.infix_cons_iff, not_or]
      refine ⟨fun hstart => h (List.IsPrefix.isInfix ?_), hrest⟩
      have hlow : scriptEnd.text <+: (Text.lowerAfter before (c :: rest)).map asciiLower := by
        rwa [hsmall]
      exact prefix_of_lowerAfter List.suffix_rfl hlow
    · rw [hsmall]
      exact (hrest.cons (by decide)).cons (by decide)
    · rw [hsmall]
      refine hrest.cons ?_
      rintro rfl
      exact hd (by decide)

lemma Avoids.lower {text : String} (h : scriptEnd.Avoids text.toList) :
    scriptEnd.Avoids (lower text).toList := by
  rw [Text.lower, String.toList_ofList]
  exact h.lowerAfter []

end Needle

end ViewWriter.Text
