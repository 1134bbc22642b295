import ViewWriter.Proofs.Script.Identifier
import ViewWriter.Proofs.Traversal
import ViewWriter.Script.Import

/-! Clauses of import statements are read as they were written. -/

namespace ViewWriter.Script

open ViewWriter.Text

section Names

lemma name?_eq_some_iff {cs : List Char} {s : String} :
    name? cs = some s ↔ isIdentifier cs = true ∧ s.toList = cs := by
  unfold name?
  split_ifs with h
  · simp only [Option.some.injEq, h, true_and]
    constructor
    · rintro rfl
      exact String.toList_ofList
    · rintro rfl
      exact String.ofList_toList
  · simp [h]

lemma name?_toList {s : String} (h : isIdentifier s.toList = true) : name? s.toList = some s :=
  name?_eq_some_iff.2 ⟨h, rfl⟩

lemma isIdentifier_of_name? {cs : List Char} {s : String} (h : name? cs = some s) :
    isIdentifier s.toList = true :=
  (name?_eq_some_iff.1 h).2.symm ▸ (name?_eq_some_iff.1 h).1

end Names

/-- A binding with identifiers for names. -/
structure Named.IsRead (n : Named) : Prop where
  imported : isIdentifier n.imported.toList = true
  bound : isIdentifier n.bound.toList = true

/-- A clause with identifiers for names. -/
structure Clause.IsRead (c : Clause) : Prop where
  default : ∀ d ∈ c.default, isIdentifier d.toList = true
  namespaceName : ∀ n ∈ c.namespaceName, isIdentifier n.toList = true
  named : ∀ n ∈ c.named, n.IsRead

namespace Named

lemma isRead_of_parse? {item : List Char} {n : Named} (h : Named.parse? item = some n) :
    n.IsRead := by
  unfold Named.parse? at h
  split at h
  · obtain ⟨x, hx, rfl⟩ := Option.map_eq_some_iff.1 h
    exact ⟨isIdentifier_of_name? hx, isIdentifier_of_name? hx⟩
  · split_ifs at h
    obtain ⟨x, hx, rfl⟩ := Option.map_eq_some_iff.1 h
    exact ⟨isIdentifier_of_name? hx, isIdentifier_of_name? hx⟩
  · split_ifs at h
    obtain ⟨x, hx, h⟩ := Option.bind_eq_some_iff.1 h
    obtain ⟨y, hy, h⟩ := Option.bind_eq_some_iff.1 h
    obtain rfl := Option.some.inj h
    exact ⟨isIdentifier_of_name? hx, isIdentifier_of_name? hy⟩
  · split_ifs at h
    obtain ⟨x, hx, h⟩ := Option.bind_eq_some_iff.1 h
    obtain ⟨y, hy, h⟩ := Option.bind_eq_some_iff.1 h
    obtain rfl := Option.some.inj h
    exact ⟨isIdentifier_of_name? hx, isIdentifier_of_name? hy⟩
  · cases h

def words (n : Named) : List (List Char) :=
  (if n.typeOnly then ["type".toList] else []) ++ n.imported.toList ::
    if n.imported == n.bound then [] else ["as".toList, n.bound.toList]

lemma toList_write (n : Named) : n.write.toList = joinWith [' '] n.words := by
  unfold Named.write Named.words
  cases n.typeOnly <;> cases n.imported == n.bound <;> simp [joinWith, List.intercalate]

variable {n : Named}

lemma isWord_of_words (h : n.IsRead) : ∀ w ∈ n.words, IsWord w := by
  have hword : ∀ {s : String}, isIdentifier s.toList = true → IsWord s.toList :=
    isWord_of_isIdentifier
  have htype : IsWord "type".toList := isWord_of_isIdentifier (by decide)
  have has : IsWord "as".toList := isWord_of_isIdentifier (by decide)
  intro w hw
  unfold Named.words at hw
  rcases List.mem_append.1 hw with hw | hw
  · split_ifs at hw
    · exact List.mem_singleton.1 hw ▸ htype
    · cases hw
  · rcases List.mem_cons.1 hw with rfl | hw
    · exact hword h.imported
    · split_ifs at hw
      · cases hw
      · simp only [List.mem_cons, List.not_mem_nil, or_false] at hw
        rcases hw with rfl | rfl
        · exact has
        · exact hword h.bound

lemma parse?_write (h : n.IsRead) : Named.parse? n.write.toList = some n := by
  have hfields : fields n.write.toList = n.words := by
    rw [toList_write]
    exact fields_joinWith fun w hw => ⟨(isWord_of_words h w hw).ne_nil, (isWord_of_words h w hw).no_blank⟩
  rw [Named.parse?, hfields]
  obtain ⟨imported, bound, typeOnly⟩ := n
  have himported := name?_toList h.imported
  have hbound := name?_toList h.bound
  simp only at himported hbound
  by_cases heq : imported = bound
  · subst heq
    cases typeOnly <;> simp [Named.words, himported]
  · cases typeOnly <;> simp [Named.words, heq, himported, hbound]

lemma spaced_write (h : n.IsRead) : Spaced n.write.toList := by
  rw [toList_write]
  exact spaced_joinWith (by simp [words]) (isWord_of_words h)

lemma notMem_write (h : n.IsRead) {c : Char} (hc : isIdentifierPart c = false) (hs : c ≠ ' ') :
    c ∉ n.write.toList := by
  have htype : c ∉ "type".toList := notMem_of_isIdentifier (by decide) hc
  have has : c ∉ "as".toList := notMem_of_isIdentifier (by decide) hc
  rw [toList_write]
  intro hmem
  rcases mem_joinWith hmem with hmem | ⟨w, hw, hmem⟩
  · exact hs (List.mem_singleton.1 hmem)
  · simp only [words, List.mem_append, List.mem_cons] at hw
    rcases hw with hw | rfl | hw
    · split_ifs at hw
      · exact htype (List.mem_singleton.1 hw ▸ hmem)
      · cases hw
    · exact notMem_of_isIdentifier h.imported hc hmem
    · split_ifs at hw
      · cases hw
      · simp only [List.mem_cons, List.not_mem_nil, or_false] at hw
        rcases hw with rfl | rfl
        · exact has hmem
        · exact notMem_of_isIdentifier h.bound hc hmem

end Named

section Items

lemma listItems_joinWith {margin tail : List Char} (hm : ∀ c ∈ margin, isBlank c)
    (ht : ∀ c ∈ tail, isBlank c) {items : List (List Char)}
    (h : ∀ item ∈ items, Spaced item ∧ ',' ∉ item) :
    listItems (margin ++ (joinWith [',', ' '] items ++ tail)) = items := by
  have hcomma : ∀ {cs : List Char}, (∀ c ∈ cs, isBlank c) → ',' ∉ cs :=
    fun h hmem => absurd (h ',' hmem) (by decide)
  induction items generalizing margin with
  | nil =>
    have hall : ∀ c ∈ margin ++ tail, isBlank c := by
      intro c hc
      exact (List.mem_append.1 hc).elim (hm c) (ht c)
    have htrim : trim isBlank (margin ++ tail) = [] := by
      rw [trim_append_of_all hm, ← List.nil_append tail, trim_append_end ht]
      rfl
    simp [listItems, joinWith, splitOn_of_notMem (hcomma hall), htrim]
  | cons item rest ih =>
    obtain ⟨hspaced, hitem⟩ := h item List.mem_cons_self
    cases rest with
    | nil =>
      have hno : ',' ∉ margin ++ (item ++ tail) := by simp [hcomma hm, hcomma ht, hitem]
      have htrim : trim isBlank (margin ++ (item ++ tail)) = item := by
        rw [trim_append_of_all hm, trim_append_end ht, hspaced.trim]
      simp [listItems, joinWith, splitOn_of_notMem hno, htrim, hspaced.ne_nil]
    | cons next more =>
      have hspace : ∀ c ∈ [' '], isBlank c := List.forall_mem_singleton.2 isBlank_space
      have hrest := ih hspace fun i hi => h i (List.mem_cons_of_mem _ hi)
      have hno : ',' ∉ margin ++ item := by simp [hcomma hm, hitem]
      have hsplit : margin ++ (joinWith [',', ' '] (item :: next :: more) ++ tail) =
          (margin ++ item) ++ ',' :: ([' '] ++ (joinWith [',', ' '] (next :: more) ++ tail)) := by
        simp [joinWith]
      have htrim : trim isBlank (margin ++ item) = item := by
        rw [trim_append_of_all hm, hspaced.trim]
      rw [hsplit, listItems, splitOn_append hno, List.map_cons, htrim,
        List.filter_cons_of_pos (by simp [hspaced.ne_nil])]
      exact congrArg (item :: ·) hrest

end Items

namespace Clause

def starWords (n : String) : List Char := joinWith [' '] [['*'], "as".toList, n.toList]

/-- What stands before the braces. -/
def heads (c : Clause) : List (List Char) :=
  (c.default.map String.toList).toList ++ (c.namespaceName.map starWords).toList

def items (c : Clause) : List (List Char) := c.named.map (·.write.toList)

def braced (c : Clause) : List (List Char) :=
  if c.named.isEmpty then []
  else ['\x7b' :: ' ' :: (joinWith [',', ' '] c.items ++ [' ', '\x7d'])]

def written (c : Clause) : List Char := joinWith [',', ' '] (c.heads ++ c.braced)

lemma toList_write (c : Clause) :
    c.write.toList = (if c.typeOnly then "type ".toList else []) ++ c.written := by
  unfold Clause.write written heads braced items
  obtain ⟨typeOnly, default, ns, named, braces⟩ := c
  cases typeOnly <;> cases default <;> cases ns <;> cases named <;>
    simp [join, starWords, joinWith, Function.comp_def]

variable {c : Clause}

lemma spaced_starWords {n : String} (h : isIdentifier n.toList = true) : Spaced (starWords n) := by
  have hstar : IsWord ['*'] := ⟨by simp, List.forall_mem_singleton.2 (by decide)⟩
  have has : IsWord "as".toList := isWord_of_isIdentifier (by decide)
  refine spaced_joinWith (by simp) ?_
  intro w hw
  simp only [List.mem_cons, List.not_mem_nil, or_false] at hw
  rcases hw with rfl | rfl | rfl
  · exact hstar
  · exact has
  · exact isWord_of_isIdentifier h

lemma notMem_starWords {n : String} (h : isIdentifier n.toList = true) {a : Char}
    (ha : isIdentifierPart a = false) (hs : a ≠ ' ') (hstar : a ≠ '*') : a ∉ starWords n := by
  intro hmem
  rcases mem_joinWith hmem with hmem | ⟨w, hw, hmem⟩
  · exact hs (List.mem_singleton.1 hmem)
  · simp only [List.mem_cons, List.not_mem_nil, or_false] at hw
    rcases hw with rfl | rfl | rfl
    · exact hstar (List.mem_singleton.1 hmem)
    · exact notMem_of_isIdentifier (by decide) ha hmem
    · exact notMem_of_isIdentifier h ha hmem

lemma heads_spaced (h : c.IsRead) : ∀ part ∈ c.heads, Spaced part := by
  intro part hp
  simp only [heads, List.mem_append, Option.mem_toList, Option.map_eq_some_iff] at hp
  rcases hp with ⟨d, hd, rfl⟩ | ⟨n, hn, rfl⟩
  · exact .word (isWord_of_isIdentifier (h.default d hd))
  · exact spaced_starWords (h.namespaceName n hn)

lemma notMem_heads (h : c.IsRead) {a : Char} (ha : isIdentifierPart a = false) (hs : a ≠ ' ')
    (hstar : a ≠ '*') : ∀ part ∈ c.heads, a ∉ part := by
  intro part hp
  simp only [heads, List.mem_append, Option.mem_toList, Option.map_eq_some_iff] at hp
  rcases hp with ⟨d, hd, rfl⟩ | ⟨n, hn, rfl⟩
  · exact notMem_of_isIdentifier (h.default d hd) ha
  · exact notMem_starWords (h.namespaceName n hn) ha hs hstar

lemma items_spaced (h : c.IsRead) : ∀ item ∈ c.items, Spaced item ∧ ',' ∉ item := by
  intro item hi
  obtain ⟨n, hn, rfl⟩ := List.mem_map.1 hi
  exact ⟨Named.spaced_write (h.named n hn), Named.notMem_write (h.named n hn) (by decide) (by decide)⟩

lemma braced_spaced (h : c.IsRead) : ∀ part ∈ c.braced, Spaced part := by
  have hopen : IsWord ['\x7b'] := ⟨by simp, List.forall_mem_singleton.2 (by decide)⟩
  have hclose : IsWord ['\x7d'] := ⟨by simp, List.forall_mem_singleton.2 (by decide)⟩
  intro part hp
  unfold braced at hp
  split_ifs at hp with hnamed
  · cases hp
  · obtain rfl := List.mem_singleton.1 hp
    have hitems : c.items ≠ [] := by simpa [items] using hnamed
    have hinner := spaced_joinWith_comma hitems fun i hi => (items_spaced h i hi).1
    exact .cons hopen (hinner.append (.word hclose))

lemma parts_ne_nil (hne : c.isEmpty = false) : c.heads ++ c.braced ≠ [] := by
  obtain ⟨typeOnly, default, ns, named, braces⟩ := c
  cases default <;> cases ns <;> cases named <;>
    simp_all [isEmpty, heads, braced]

lemma spaced_written (h : c.IsRead) (hne : c.isEmpty = false) : Spaced c.written := by
  refine spaced_joinWith_comma (parts_ne_nil hne) ?_
  intro part hp
  exact (List.mem_append.1 hp).elim (heads_spaced h part) (braced_spaced h part)

lemma spaced_write (h : c.IsRead) (hne : c.isEmpty = false) : Spaced c.write.toList := by
  have htype : IsWord "type".toList := isWord_of_isIdentifier (by decide)
  rw [toList_write]
  split_ifs
  · exact .cons htype (spaced_written h hne)
  · exact spaced_written h hne

lemma namespaceOf?_identifier {cs : List Char} (h : isIdentifier cs = true) :
    namespaceOf? cs = none := by
  have hstrip : stripPrefix? ['*'] cs = none := by
    refine Option.eq_none_iff_forall_not_mem.2 fun rest hrest => ?_
    have hmem : '*' ∈ cs := stripPrefix?_eq_some_iff.1 hrest ▸ List.mem_cons_self
    exact notMem_of_isIdentifier h (by decide) hmem
  simp [namespaceOf?, hstrip]

lemma namespaceOf?_starWords {n : String} (h : isIdentifier n.toList = true) :
    namespaceOf? (starWords n) = some n := by
  have has : IsWord "as".toList := isWord_of_isIdentifier (by decide)
  have hcs : starWords n = ['*'] ++ ' ' :: ("as".toList ++ ' ' :: n.toList) := by
    simp [starWords, joinWith]
  have hstrip : stripPrefix? ['*'] (starWords n) = some (' ' :: ("as".toList ++ ' ' :: n.toList)) :=
    stripPrefix?_eq_some_iff.2 hcs
  have hfields : fields (' ' :: ("as".toList ++ ' ' :: n.toList)) = ["as".toList, n.toList] := by
    rw [fields_space, has.fields_cons, (isWord_of_isIdentifier h).fields]
  simp only [namespaceOf?, hstrip, hfields, name?_toList h, isBlank_space]
  rfl

lemma readHead_heads (h : c.IsRead) :
    readHead none none c.heads = some (c.default, c.namespaceName) := by
  obtain ⟨typeOnly, default, ns, named, braces⟩ := c
  cases default with
  | none =>
    cases ns with
    | none => rfl
    | some n =>
      have hn := h.namespaceName n rfl
      simp [heads, readHead, namespaceOf?_starWords hn]
  | some d =>
    have hd := h.default d rfl
    cases ns with
    | none => simp [heads, readHead, namespaceOf?_identifier hd, name?_toList hd]
    | some n =>
      have hn := h.namespaceName n rfl
      simp [heads, readHead, namespaceOf?_identifier hd, name?_toList hd,
        namespaceOf?_starWords hn]

/-- What stands before the braces in the written clause. -/
def beforeBraces (c : Clause) : List Char :=
  joinWith [',', ' '] c.heads ++ if c.named.isEmpty || c.heads.isEmpty then [] else [',', ' ']

def inBraces (c : Clause) : List Char := ' ' :: (joinWith [',', ' '] c.items ++ [' '])

lemma written_eq (c : Clause) : c.written =
    c.beforeBraces ++ if c.named.isEmpty then [] else '\x7b' :: (c.inBraces ++ ['\x7d']) := by
  unfold written beforeBraces inBraces braced
  cases hnamed : c.named.isEmpty with
  | true => simp
  | false =>
    cases hheads : c.heads with
    | nil => simp [joinWith]
    | cons part rest =>
      rw [joinWith_append (List.cons_ne_nil part rest) (by simp)]
      simp [joinWith]

lemma notMem_beforeBraces (h : c.IsRead) {a : Char} (ha : isIdentifierPart a = false)
    (hs : a ∉ [' ', ',', '*']) : a ∉ c.beforeBraces := by
  simp only [List.mem_cons, List.not_mem_nil, or_false, not_or] at hs
  intro hmem
  rcases List.mem_append.1 hmem with hmem | hmem
  · rcases mem_joinWith hmem with hmem | ⟨part, hp, hmem⟩
    · simp [hs] at hmem
    · exact notMem_heads h ha hs.1 hs.2.2 part hp hmem
  · split_ifs at hmem
    · cases hmem
    · simp [hs] at hmem

lemma notMem_inBraces (h : c.IsRead) {a : Char} (ha : isIdentifierPart a = false)
    (hs : a ∉ [' ', ',']) : a ∉ c.inBraces := by
  simp only [List.mem_cons, List.not_mem_nil, or_false, not_or] at hs
  intro hmem
  simp only [inBraces, List.mem_cons, List.mem_append, List.not_mem_nil, or_false] at hmem
  rcases hmem with hmem | hmem | hmem
  · exact hs.1 hmem
  · rcases mem_joinWith hmem with hmem | ⟨item, hi, hmem⟩
    · simp [hs] at hmem
    · obtain ⟨n, hn, rfl⟩ := List.mem_map.1 hi
      exact Named.notMem_write (h.named n hn) ha hs.1 hmem
  · exact hs.1 hmem

lemma cut_written (h : c.IsRead) : cut '\x7b' c.written =
    (c.beforeBraces, if c.named.isEmpty then none else some (c.inBraces ++ ['\x7d'])) := by
  rw [written_eq]
  split_ifs
  · rw [List.append_nil, cut_of_notMem (notMem_beforeBraces h (by decide) (by decide))]
  · exact cut_append (notMem_beforeBraces h (by decide) (by decide))

lemma last_of_joinWith {parts : List (List Char)} (hne : parts ≠ [])
    (h : ∀ part ∈ parts, part ≠ [] ∧ ',' ∉ part) :
    ∃ before d, joinWith [',', ' '] parts = before ++ [d] ∧ d ≠ ',' := by
  induction parts with
  | nil => contradiction
  | cons part rest ih =>
    cases rest with
    | nil =>
      obtain ⟨hpart, hcomma⟩ := h part List.mem_cons_self
      refine ⟨part.dropLast, part.getLast hpart, ?_, ?_⟩
      · simp [joinWith, List.dropLast_append_getLast]
      · exact fun e => hcomma (e ▸ List.getLast_mem hpart)
    | cons next more =>
      have hrest : ∀ q ∈ next :: more, q ≠ [] ∧ ',' ∉ q :=
        fun q hq => h q (List.mem_cons_of_mem _ hq)
      obtain ⟨before, d, hjoin, hd⟩ := ih (List.cons_ne_nil next more) hrest
      refine ⟨part ++ ([',', ' '] ++ before), d, ?_, hd⟩
      rw [joinWith] at hjoin ⊢
      rw [intercalate_cons_ne (List.cons_ne_nil next more), hjoin]
      simp

lemma trimEnd_beforeBraces (h : c.IsRead) :
    trimEnd (· == ',') (trim isBlank c.beforeBraces) = joinWith [',', ' '] c.heads := by
  rcases eq_or_ne c.heads [] with hheads | hheads
  · simp [beforeBraces, hheads, joinWith, trim, trimStart, trimEnd]
  · have hspaced : Spaced (joinWith [',', ' '] c.heads) :=
      spaced_joinWith_comma hheads (heads_spaced h)
    have hcomma : IsWord [','] := ⟨by simp, List.forall_mem_singleton.2 (by decide)⟩
    have hspace : ∀ a ∈ [' '], isBlank a := List.forall_mem_singleton.2 isBlank_space
    obtain ⟨before, d, hlast, hd⟩ := last_of_joinWith hheads fun part hp =>
      ⟨(heads_spaced h part hp).ne_nil, notMem_heads h (by decide) (by decide) (by decide) part hp⟩
    have hkeep : trimEnd (· == ',') (joinWith [',', ' '] c.heads) = joinWith [',', ' '] c.heads := by
      rw [trimEnd_eq_rdropWhile, hlast, List.rdropWhile_concat_neg _ _ _ (by simpa using hd)]
    unfold beforeBraces
    split_ifs
    · rw [List.append_nil, hspaced.trim, hkeep]
    · have hsplit : joinWith [',', ' '] c.heads ++ [',', ' '] =
          (joinWith [',', ' '] c.heads ++ [',']) ++ [' '] := by simp
      rw [hsplit, trim_append_end hspace, (hspaced.append_word hcomma).trim,
        trimEnd_append_of_all _ _ (by decide), hkeep]

lemma listItems_heads (h : c.IsRead) : listItems (joinWith [',', ' '] c.heads) = c.heads := by
  have hitems := @listItems_joinWith [] [] (by simp) (by simp) c.heads fun part hp =>
    ⟨heads_spaced h part hp, notMem_heads h (by decide) (by decide) (by decide) part hp⟩
  simpa using hitems

lemma listItems_inBraces (h : c.IsRead) : listItems c.inBraces = c.items := by
  have hspace : ∀ a ∈ [' '], isBlank a := List.forall_mem_singleton.2 isBlank_space
  exact listItems_joinWith hspace hspace (items_spaced h)

lemma mapM_items (h : c.IsRead) : c.items.mapM Named.parse? = some c.named := by
  rw [mapM_eq_some_iff, items, List.forall₂_map_left_iff, List.forall₂_same]
  exact fun n hn => Named.parse?_write (h.named n hn)

lemma joinWith_cons (part : List Char) (rest : List (List Char)) :
    ∃ tail, joinWith [',', ' '] (part :: rest) = part ++ tail ∧
      ∀ a ∈ tail.head?, a = ',' := by
  cases rest with
  | nil => exact ⟨[], by simp [joinWith], by simp⟩
  | cons next more => exact ⟨_, intercalate_cons_ne (List.cons_ne_nil next more), by simp⟩

lemma stripPrefix?_written (h : c.IsRead) (hne : c.isEmpty = false) :
    stripPrefix? "type ".toList c.written = none := by
  obtain ⟨part, parts, hparts⟩ := List.exists_cons_of_ne_nil (parts_ne_nil hne)
  obtain ⟨tail, hwritten, htail⟩ := joinWith_cons part parts
  rw [← hparts] at hwritten
  refine Option.eq_none_iff_forall_not_mem.2 fun rest hrest => ?_
  have hcs : "type".toList ++ ' ' :: rest = part ++ tail :=
    (stripPrefix?_eq_some_iff.1 hrest).symm.trans hwritten
  have htype : ∀ a ∈ "type".toList, isIdentifierPart a = true :=
    List.all_eq_true.1 (by decide)
  obtain ⟨typeOnly, default, ns, named, braces⟩ := c
  cases default with
  | some d =>
    -- the first name ends at a comma or at the end of the clause
    obtain rfl : d.toList = part := by simpa [heads] using (List.cons.inj hparts).1
    have hd := (parts_of_isIdentifier (h.default d rfl)).2
    have hstop := congrArg (List.dropWhile isIdentifierPart) hcs
    rw [dropWhile_stop htype rfl, List.dropWhile_append_of_pos hd] at hstop
    cases tail with
    | nil => cases hstop
    | cons a tail =>
      obtain rfl : a = ',' := htail a rfl
      rw [List.dropWhile_cons_of_neg (by decide)] at hstop
      exact absurd (List.cons.inj hstop).1 (by decide)
  | none =>
    have hhead : ∃ a more, part = a :: more ∧ a ≠ 't' := by
      cases ns with
      | some n =>
        obtain rfl : starWords n = part := by simpa [heads] using (List.cons.inj hparts).1
        exact ⟨'*', _, rfl, by decide⟩
      | none =>
        cases named with
        | nil => simp [isEmpty] at hne
        | cons n named =>
          have hpart := (List.cons.inj hparts).1
          exact ⟨'\x7b', _, hpart.symm, by decide⟩
    obtain ⟨a, more, rfl, ha⟩ := hhead
    exact ha (List.cons.inj hcs).1.symm

lemma notMem_write (h : c.IsRead) {a : Char} (ha : isIdentifierPart a = false)
    (hs : a ∉ [' ', ',', '*', '\x7b', '\x7d']) : a ∉ c.write.toList := by
  simp only [List.mem_cons, List.not_mem_nil, or_false, not_or] at hs
  have hbefore : a ∉ c.beforeBraces := notMem_beforeBraces h ha (by simp [hs])
  have hinside : a ∉ c.inBraces := notMem_inBraces h ha (by simp [hs])
  have htype : a ∉ "type ".toList := by
    have hword : a ∉ "type".toList := notMem_of_isIdentifier (by decide) ha
    intro hmem
    rcases List.mem_append.1 (show a ∈ "type".toList ++ [' '] from hmem) with hmem | hmem
    · exact hword hmem
    · exact hs.1 (List.mem_singleton.1 hmem)
  rw [toList_write, written_eq]
  intro hmem
  rcases List.mem_append.1 hmem with hmem | hmem
  · split_ifs at hmem
    · exact htype hmem
    · cases hmem
  · rcases List.mem_append.1 hmem with hmem | hmem
    · exact hbefore hmem
    · split_ifs at hmem
      · cases hmem
      · simp [hs, hinside] at hmem

lemma stripPrefix?_write (h : c.IsRead) (hne : c.isEmpty = false) :
    stripPrefix? "type ".toList c.write.toList = some c.written ∧ c.typeOnly = true ∨
      stripPrefix? "type ".toList c.write.toList = none ∧ c.typeOnly = false ∧
        c.write.toList = c.written := by
  rw [toList_write]
  cases c.typeOnly with
  | true => exact .inl ⟨stripPrefix?_eq_some_iff.2 rfl, rfl⟩
  | false => exact .inr ⟨stripPrefix?_written h hne, rfl, rfl⟩

/-- A clause that binds something is read as it was written; braces around nothing are gone. -/
lemma parse?_write (h : c.IsRead) (hne : c.isEmpty = false) :
    Clause.parse? c.write.toList = some { c with braces := !c.named.isEmpty } := by
  have hbraces : cut '\x7d' (c.inBraces ++ ['\x7d']) = (c.inBraces, some []) :=
    cut_append (notMem_inBraces h (by decide) (by decide))
  have hbinds : c.named.isEmpty = true →
      (c.default = none → ¬ c.namespaceName = none) ∧ c.named = [] := by
    intro hnamed
    refine ⟨?_, List.isEmpty_iff.1 hnamed⟩
    simpa [isEmpty, hnamed, Option.isSome_iff_ne_none] using hne
  unfold Clause.parse?
  rw [(spaced_write h hne).squeezed]
  rcases stripPrefix?_write h hne with ⟨hstrip, htype⟩ | ⟨hstrip, htype, hwrite⟩
  · simp only [hstrip, cut_written h, trimEnd_beforeBraces h, listItems_heads h]
    cases hnamed : c.named.isEmpty with
    | true => simpa [readHead_heads h, htype] using hbinds hnamed
    | false => simp [hbraces, listItems_inBraces h, mapM_items h, readHead_heads h, htype]
  · rw [hwrite] at hstrip
    simp only [hwrite, hstrip, cut_written h, trimEnd_beforeBraces h, listItems_heads h]
    cases hnamed : c.named.isEmpty with
    | true => simpa [readHead_heads h, htype] using hbinds hnamed
    | false => simp [hbraces, listItems_inBraces h, mapM_items h, readHead_heads h, htype]

lemma namespaceOf?_cases {part : List Char} {n : String} (h : namespaceOf? part = some n) :
    isIdentifier n.toList = true := by
  unfold namespaceOf? at h
  split at h
  · split at h
    · split_ifs at h
      exact isIdentifier_of_name? h
    · cases h
  · cases h

lemma readHead_cases {default ns default' ns' : Option String} {parts : List (List Char)}
    (hd : ∀ d ∈ default, isIdentifier d.toList = true)
    (hn : ∀ n ∈ ns, isIdentifier n.toList = true)
    (h : readHead default ns parts = some (default', ns')) :
    (∀ d ∈ default', isIdentifier d.toList = true) ∧
      ∀ n ∈ ns', isIdentifier n.toList = true := by
  induction parts generalizing default ns with
  | nil =>
    obtain ⟨rfl, rfl⟩ := Prod.mk.inj (Option.some.inj h)
    exact ⟨hd, hn⟩
  | cons part rest ih =>
    rw [readHead.eq_def] at h
    simp only at h
    split at h
    · rename_i n hns
      refine ih hd (fun m hm => ?_) h
      exact Option.some.inj hm ▸ namespaceOf?_cases hns
    · split at h
      · rename_i d hdef
        refine ih (fun m hm => ?_) hn h
        exact Option.some.inj hm ▸ isIdentifier_of_name? hdef
      · cases h

lemma isRead_of_parse? {text : List Char} (h : Clause.parse? text = some c) : c.IsRead := by
  have hend : ∀ {typeOnly braces : Bool} {bare : Option String × Option String → Prop}
      [DecidablePred bare] {named : List Named} {parts : List (List Char)},
      (∀ n ∈ named, n.IsRead) →
      ((readHead none none parts).bind fun x =>
        if bare x then none.bind fun _ : PUnit => pure ⟨typeOnly, x.1, x.2, named, braces⟩
        else pure ⟨typeOnly, x.1, x.2, named, braces⟩) = some c → c.IsRead := by
    intro typeOnly braces bare _ named parts hnamed h
    obtain ⟨⟨default, ns⟩, hhead, h⟩ := Option.bind_eq_some_iff.1 h
    obtain ⟨hdefault, hns⟩ := readHead_cases (by simp) (by simp) hhead
    split_ifs at h
    · cases h
    · obtain rfl := Option.some.inj h
      exact ⟨hdefault, hns, hnamed⟩
  unfold Clause.parse? at h
  simp only [Option.bind_eq_bind] at h
  split at h
  · obtain ⟨named, hnamed, h⟩ := Option.bind_eq_some_iff.1 h
    obtain rfl := Option.some.inj hnamed
    exact hend (by simp) h
  · split at h
    · split_ifs at h
      · obtain ⟨named, hnamed, h⟩ := Option.bind_eq_some_iff.1 h
        refine hend ?_ h
        intro n hn
        obtain ⟨item, -, hitem⟩ := exists_of_mem_right (mapM_eq_some_iff.1 hnamed) hn
        exact Named.isRead_of_parse? hitem
      · cases h
    · cases h

end Clause

end ViewWriter.Script
