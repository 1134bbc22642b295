import Mathlib.Data.Set.Function
import ViewWriter.Proofs.Schema.Storage
import ViewWriter.Proofs.Schema.WellFormed

/-! Copies of the trees of an arena. A copy is an arena of one tree, which is the copied one under other
ids. -/

namespace ViewWriter.Schema.Arena

section Copies

variable {a : Arena} {F : List Tree} {id : String} {q : Option String} {t : Tree}
  {rename : String → String}

lemma injOn_ids_iff (hn : (idsOf [t]).Nodup) :
    Set.InjOn rename {x | x ∈ idsOf [t]} ↔ ((idsOf [t]).map rename).Nodup := by
  rw [List.nodup_map_iff_inj_on hn]
  exact ⟨fun h _ hx _ hy => h hx hy, fun h _ hx _ hy => h _ hx _ hy⟩

lemma copySubtree_unknown (hid : id ∉ a.ids) :
    a.copySubtree id rename = .error (.unknownId id) := by
  have hnone : a.nodes.get? id = none := Table.get?_of_notMem hid
  simp only [Arena.copySubtree, Arena.walkAt, walkFrom, node, hnone]
  rfl

lemma Stands.exists_part (h : a.Stands F) (hid : id ∈ a.ids) :
    ∃ t q, t.record.id = id ∧ cells q [t] <:+: cells none F ∧ a.toTree id = .ok t := by
  obtain ⟨c, hc, rfl⟩ := exists_cell_of_id none (h.mem_ids.1 hid)
  obtain ⟨cs, -, hpart⟩ := exists_subtree hc
  obtain ⟨hstores, hsize⟩ := h.stores_part hpart
  exact ⟨.node c.record cs, c.parent, rfl, hpart, toTree_of_stores hstores hsize⟩

lemma Stands.exists_copy (h : a.Stands F) (ht : cells q [t] <:+: cells none F)
    (hn : ((idsOf [t]).map rename).Nodup) :
    ∃ copy, a.copySubtree t.record.id rename = .ok copy ∧ copy.Carries [t.rename rename] := by
  have hids : ((cells none [t.rename rename]).map (·.record.id)).Nodup := nodup_rename hn
  obtain ⟨r, cs⟩ := t
  rw [h.copySubtree_eq ht, if_pos hn]
  exact ⟨_, rfl, _, HasCells.ofEntries hids _, rfl⟩

lemma length_recordsOf_rename (t : Tree) :
    (Tree.recordsOf [t.rename rename]).length = (Tree.recordsOf [t]).length := by
  rw [show Tree.recordsOf [t.rename rename] = _ from recordsOf_rename rename [t], List.length_map]

end Copies

/-- Copying the tree at a node gives an arena of that tree under the new ids, if they differ. New ids that
do not differ are refused, and so is a node that is not there. -/
theorem copySubtree_relabels {a : Arena} (h : a.WellFormed) (id : String)
    (rename : String → String) :
    (id ∉ a.ids → a.copySubtree id rename = .error (.unknownId id)) ∧
    (id ∈ a.ids → ∃ t, a.toTree id = .ok t ∧ t.record.id = id ∧
      (¬ Set.InjOn rename {x | x ∈ idsOf [t]} →
        a.copySubtree id rename = .error .duplicateCopies) ∧
      (Set.InjOn rename {x | x ∈ idsOf [t]} →
        ∃ copy, a.copySubtree id rename = .ok copy ∧ copy.roots = [rename id] ∧
          copy.size = t.records.length ∧ copy.toTree (rename id) = .ok (t.rename rename))) := by
  obtain ⟨F, hF⟩ := h.exists_stands
  refine ⟨Arena.copySubtree_unknown, fun hid => ?_⟩
  obtain ⟨t, q, rfl, hpart, htree⟩ := hF.exists_part hid
  have hnodup : (idsOf [t]).Nodup := hF.nodup.sublist (ids_subtree hpart).sublist
  refine ⟨t, htree, rfl, fun hrepeated => ?_, fun hdistinct => ?_⟩
  · rw [injOn_ids_iff hnodup] at hrepeated
    rw [hF.copySubtree_eq hpart, if_neg hrepeated]
  · obtain ⟨copy, hcopy, hcarries⟩ := hF.exists_copy hpart ((injOn_ids_iff hnodup).1 hdistinct)
    obtain ⟨r, cs⟩ := t
    refine ⟨copy, hcopy, hcarries.roots, ?_, ?_⟩
    · rw [hcarries.size_eq, length_recordsOf_rename, Tree.recordsOf, Tree.recordsOf, List.append_nil]
    · exact toTree_of_stores hcarries.stores (hcarries.size_eq ▸ Nat.le_succ _)

def itemList : Tree := .node ⟨"l", "ul", [], [], .null⟩ [
  .node ⟨"i", "li", [], [], .str "one"⟩ [], .node ⟨"j", "li", [], [], .str "two"⟩ []]

lemma exists_itemList : ∃ a, ofSources [.tree itemList] = .ok a ∧ a.Holds [itemList] := by
  obtain ⟨a, ha, hholds⟩ := Holds.empty.exists_foldlM_addRoot (G := [itemList]) (by decide) (by decide)
  exact ⟨a, ha, hholds⟩

theorem copySubtree_relabels_itemList :
    ∃ a, ofSources [.tree itemList] = .ok a ∧ a.WellFormed ∧ a.toTree "l" = .ok itemList ∧
      (∃ copy, a.copySubtree "l" copyId = .ok copy ∧ copy.roots = ["l-copy"] ∧ copy.size = 3 ∧
        copy.toTree "l-copy" = .ok (itemList.rename copyId)) ∧
      a.copySubtree "l" (fun _ => "m") = .error .duplicateCopies ∧
      a.copySubtree "m" copyId = .error (.unknownId "m") := by
  obtain ⟨a, ha, hholds⟩ := exists_itemList
  have hids : a.ids.Perm ["l", "i", "j"] := (HasCells.keys_perm hholds.hasCells.nodes)
  have hlist : a.toTree "l" = .ok itemList := by
    refine toTree_of_stores (t := itemList) hholds.stands.stores ?_
    exact hholds.stands.size_eq ▸ Nat.le_succ _
  have hmem : "l" ∈ a.ids := hids.mem_iff.2 (by decide)
  have hnodup : (idsOf [itemList]).Nodup := by decide
  obtain ⟨t, ht, -, -, hcopy⟩ := (copySubtree_relabels hholds.wellFormed "l" copyId).2 hmem
  obtain ⟨u, hu, -, hrefused, -⟩ := (copySubtree_relabels hholds.wellFormed "l" fun _ => "m").2 hmem
  obtain rfl := Except.ok.inj (hlist.symm.trans ht)
  obtain rfl := Except.ok.inj (hlist.symm.trans hu)
  refine ⟨a, ha, hholds.wellFormed, hlist, hcopy ?_, hrefused ?_, ?_⟩
  · rw [injOn_ids_iff hnodup]
    decide
  · rw [injOn_ids_iff hnodup]
    decide
  · refine (copySubtree_relabels hholds.wellFormed "m" copyId).1 fun hm => ?_
    exact absurd (hids.mem_iff.1 hm) (by decide)

end ViewWriter.Schema.Arena

/-! Arenas that are put into others. The walk through the one is put into the walk through the other at
one place, and nothing else changes. -/

namespace ViewWriter.Schema

open Arena

/-- A position counts `n` of `length` items off: from the back if it is negative, none or all of them
where there are not so many, and all of them if it is missing. -/
def IsPlace (length n : ℕ) : Option ℤ → Prop
  | none => n = length
  | some i => (n : ℤ) = max 0 (min (length : ℤ) (if i < 0 then (length : ℤ) + i else i))

lemma isPlace_place (length : ℕ) (position : Option ℤ) :
    IsPlace length (place length position) position := by
  cases position with
  | none => rfl
  | some i =>
    rw [IsPlace, place]
    split_ifs <;> omega

/-- The trees below `parent`, or the whole forest, with the records of the forest before and after
them. -/
structure IsBranch (F : List Tree) (parent : Option String) (S : List Tree)
    (above below : List Record) : Prop where
  part : cells parent S <:+: cells none F
  records : Tree.recordsOf F = above ++ Tree.recordsOf S ++ below
  attach : ∀ G position, Tree.recordsOf (attachAll parent G position F) =
    above ++ Tree.recordsOf (insertAt S G position) ++ below
  root : parent = none → S = F ∧ above = [] ∧ below = []
  node : ∀ p, parent = some p → ∃ before r q, above = before ++ [r] ∧ r.id = p ∧
    ⟨r, q, rootIds S⟩ ∈ cells none F

lemma isBranch_none (F : List Tree) : IsBranch F none F [] [] where
  part := List.infix_rfl
  records := by simp
  attach := by simp [attachAll]
  root _ := ⟨rfl, rfl, rfl⟩
  node p hp := by cases hp

/-- The records in front of a node and behind what is below it. -/
lemma exists_graft {F : List Tree} {p : String} (hp : OnceIn p F) (q : Option String) :
    ∃ r cs before below, r.id = p ∧ (∃ q', cells q' [.node r cs] <:+: cells q F) ∧
      Tree.recordsOf F = before ++ r :: (Tree.recordsOf cs ++ below) ∧
      ∀ G position, Tree.recordsOf (graftAll p G position F) =
        before ++ r :: (Tree.recordsOf (insertAt cs G position) ++ below) := by
  induction hp generalizing q with
  | @root r cs rest hr hcs hrest =>
    refine ⟨r, cs, [], Tree.recordsOf rest, hr, ⟨q, [], cells q rest, ?_⟩, rfl, fun G position => ?_⟩
    · simp [cells]
    · rw [graftAll_cons, if_pos hr, graftAll_of_notMem hrest]
      rfl
  | @under r cs rest hr _ hrest ih =>
    obtain ⟨s, ds, before, below, hs, ⟨q', hpart⟩, hrecords, hgraft⟩ := ih (some r.id)
    refine ⟨s, ds, r :: before, below ++ Tree.recordsOf rest, hs, ⟨q', hpart.trans ?_⟩, ?_,
      fun G position => ?_⟩
    · exact ⟨[⟨r, q, rootIds cs⟩], cells q rest, by rw [cells_cons]; rfl⟩
    · rw [recordsOf_cons, hrecords]
      simp
    · rw [graftAll_cons, if_neg hr, graftAll_of_notMem hrest, recordsOf_cons, hgraft]
      simp
  | @behind r cs rest hr hcs _ ih =>
    obtain ⟨s, ds, before, below, hs, ⟨q', hpart⟩, hrecords, hgraft⟩ := ih q
    refine ⟨s, ds, r :: (Tree.recordsOf cs ++ before), below, hs, ⟨q', hpart.trans ?_⟩, ?_,
      fun G position => ?_⟩
    · rw [cells_cons]
      exact ((List.suffix_append _ _).trans (List.suffix_cons _ _)).isInfix
    · rw [recordsOf_cons, hrecords]
      simp
    · rw [graftAll_cons, if_neg hr, graftAll_of_notMem hcs, recordsOf_cons, hgraft]
      simp

lemma exists_branch {F : List Tree} {p : String} (hn : (idsOf F).Nodup) (hp : p ∈ idsOf F) :
    ∃ S above below, IsBranch F (some p) S above below := by
  obtain ⟨r, cs, before, below, rfl, ⟨q, hpart⟩, hrecords, hgraft⟩ :=
    exists_graft (onceIn_of_mem hn hp) none
  rw [cells_cons] at hpart
  refine ⟨cs, before ++ [r], below, ?_, ?_, fun G position => ?_, (by simp), ?_⟩
  · refine List.IsInfix.trans ?_ hpart
    exact ⟨[⟨r, q, rootIds cs⟩], cells q [], rfl⟩
  · simp [hrecords]
  · simp [attachAll, hgraft]
  · intro p hp
    exact ⟨before, r, q, rfl, Option.some.inj hp, hpart.subset List.mem_cons_self⟩

lemma IsBranch.recordsOf_attachAll {F G S : List Tree} {parent : Option String}
    {position : Option ℤ} {above below : List Record} (hS : IsBranch F parent S above below) :
    Tree.recordsOf (attachAll parent G position F) =
      above ++ (Tree.recordsOf (S.take (place S.length position)) ++ Tree.recordsOf G ++
        Tree.recordsOf (S.drop (place S.length position))) ++ below := by
  rw [hS.attach, insertAt, recordsOf_append, recordsOf_append]

namespace Arena

/-- The children of a node, or the roots. -/
def siblings (a : Arena) : Option String → List String
  | none => a.roots
  | some p => a.childrenOf p

section Attaching

variable {a b c : Arena} {F G S : List Tree} {parent : Option String} {position : Option ℤ}
  {above below : List Record} {id : String} {rename : String → String}

lemma exists_withSubtree_iff : (∃ c, a.withSubtree b parent position = .ok c) ↔
    (∀ id ∈ b.ids, id ∉ a.ids) ∧ ∀ p, parent = some p → p ∈ a.ids := by
  have hclash : (b.ids.filter a.has).isEmpty = true ↔ ∀ id ∈ b.ids, id ∉ a.ids := by
    rw [List.isEmpty_iff, List.filter_eq_nil_iff]
    exact forall₂_congr fun id _ => not_congr Table.has_iff
  simp only [Arena.withSubtree, Bool.not_eq_true', ← Bool.not_eq_true, hclash]
  by_cases hdisj : ∀ id ∈ b.ids, id ∉ a.ids
  · rw [if_neg (not_not.2 hdisj), and_iff_right hdisj]
    cases parent with
    | none => simp
    | some p =>
      have hp : a.has p = true ↔ p ∈ a.ids := Table.has_iff
      by_cases hmem : p ∈ a.ids <;> simp [hp, hmem]
  · simp [hdisj]

lemma withSubtree_parents (hc : a.withSubtree b parent position = .ok c)
    (parents : Table (Option String)) : ∃ parents',
      a.withSubtree { b with parents } parent position = .ok { c with parents := parents' } := by
  simp only [Arena.withSubtree] at hc ⊢
  split_ifs at hc with hclash
  · cases parent with
    | none =>
      cases hc
      exact ⟨_, if_neg hclash⟩
    | some p =>
      dsimp only at hc
      split_ifs at hc with hp
      cases hc
      exact ⟨_, (if_neg hclash).trans (if_neg hp)⟩

lemma Carries.withSubtree (ha : a.Stands F) (hb : b.Carries G)
    (hc : a.withSubtree b parent position = .ok c) : c.Carries (attachAll parent G position F) := by
  obtain ⟨parents, hb⟩ := hb
  obtain ⟨parents', hc⟩ := withSubtree_parents hc parents
  exact ⟨parents', ha.withSubtree hb hc⟩

lemma withSubtree_tables (hc : a.withSubtree b parent position = .ok c) :
    c.nodes = a.nodes.merge b.nodes ∧ (parent ≠ none → c.roots = a.roots) ∧
      (parent = none → c.roots = insertAt a.roots b.roots position) ∧
      ∀ id, c.children.get? id = if parent = some id then
          some (insertAt (((a.children.merge b.children).get? id).getD []) b.roots position)
        else (a.children.merge b.children).get? id := by
  simp only [Arena.withSubtree] at hc
  split_ifs at hc
  cases parent with
  | none =>
    cases hc
    exact ⟨rfl, fun h => absurd rfl h, fun _ => rfl, fun id => (if_neg (by simp)).symm⟩
  | some p =>
    dsimp only at hc
    split_ifs at hc
    cases hc
    refine ⟨rfl, fun _ => rfl, by simp, fun id => ?_⟩
    rw [Table.get?_set]
    by_cases hid : id = p
    · subst hid
      rw [if_pos rfl, if_pos rfl]
      rfl
    · rw [if_neg hid, if_neg fun h => hid (Option.some.inj h).symm]

/-- The arena `c` is `a` with `b` put below `parent`, or among the roots. The walk through `b` stands as a
whole in the walk through `a`, between the records below what is now on the left of its roots and those
below what is on the right. -/
structure Spliced (a b c : Arena) (parent : Option String) (position : Option ℤ) : Prop where
  ids : c.ids.Perm (a.ids ++ b.ids)
  node_left : ∀ id ∈ a.ids, c.node id = a.node id
  node_right : ∀ id ∈ b.ids, c.node id = b.node id
  roots : parent ≠ none → c.roots = a.roots
  childrenOf_left : ∀ id ∈ a.ids, parent ≠ some id → c.childrenOf id = a.childrenOf id
  childrenOf_right : ∀ id ∈ b.ids, c.childrenOf id = b.childrenOf id
  walk : ∃ n, IsPlace (a.siblings parent).length n position ∧
    c.siblings parent = (a.siblings parent).take n ++ b.roots ++ (a.siblings parent).drop n ∧
    ∃ above left records right below,
      Visits a ((a.siblings parent).take n) left ∧ Visits a ((a.siblings parent).drop n) right ∧
      a.walk = .ok (above ++ (left ++ right) ++ below) ∧ b.walk = .ok records ∧
      c.walk = .ok (above ++ (left ++ records ++ right) ++ below) ∧
      (parent = none → above = [] ∧ below = []) ∧
      ∀ p, parent = some p → ∃ before r, above = before ++ [r] ∧ r.id = p

lemma Stands.exists_branch (h : a.Stands F) (hp : ∀ p, parent = some p → p ∈ a.ids) :
    ∃ S above below, IsBranch F parent S above below := by
  cases parent with
  | none => exact ⟨F, [], [], isBranch_none F⟩
  | some p => exact Schema.exists_branch h.nodup (h.mem_ids.1 (hp p rfl))

lemma Stands.siblings (h : a.Stands F) (hS : IsBranch F parent S above below) :
    a.siblings parent = rootIds S := by
  cases parent with
  | none => rw [Arena.siblings, h.roots, (hS.root rfl).1]
  | some p =>
    obtain ⟨before, r, q, -, rfl, hcell⟩ := hS.node p rfl
    exact h.hasCells.childrenOf_cell hcell

lemma Stands.walk_splits (h : a.Stands F) (hS : IsBranch F parent S above below) (n : ℕ) :
    Visits a ((a.siblings parent).take n) (Tree.recordsOf (S.take n)) ∧
      Visits a ((a.siblings parent).drop n) (Tree.recordsOf (S.drop n)) ∧
      a.walk = .ok (above ++ (Tree.recordsOf (S.take n) ++ Tree.recordsOf (S.drop n)) ++ below) := by
  have hstores : a.Stores parent S := fun c hc => h.stores c (hS.part.subset hc)
  have hpart {T : List Tree} (hT : T.Sublist S) : a.Stores parent T := by
    refine fun c hc => hstores c ?_
    rw [cells_eq_flatMap] at hc ⊢
    obtain ⟨t, ht, hc⟩ := List.mem_flatMap.1 hc
    exact List.mem_flatMap.2 ⟨t, hT.subset ht, hc⟩
  rw [h.siblings hS, rootIds, ← List.map_take, ← List.map_drop]
  refine ⟨visits_roots (hpart (List.take_sublist n S)), visits_roots (hpart (List.drop_sublist n S)), ?_⟩
  rw [h.walk, hS.records, ← recordsOf_append, List.take_append_drop]

lemma spliced_of_withSubtree (ha : a.WellFormed) (hb : b.WellFormed)
    (hc : a.withSubtree b parent position = .ok c) : a.Spliced b c parent position := by
  obtain ⟨F, hF⟩ := ha.exists_stands
  obtain ⟨G, hG⟩ := hb.exists_stands
  obtain ⟨hdisj, hp⟩ := exists_withSubtree_iff.1 ⟨c, hc⟩
  obtain ⟨hnodes, hroots, hinserted, hchildren⟩ := withSubtree_tables hc
  obtain ⟨S, above, below, hS⟩ := hF.exists_branch hp
  have hbelow : ∀ id ∈ a.ids, (a.children.merge b.children).get? id = a.children.get? id :=
    fun id hid => Table.get?_merge_of_notMem fun hm => hdisj id (hb.children.mem_iff.1 hm) hid
  have hlength : (a.siblings parent).length = S.length := by
    rw [hF.siblings hS, rootIds, List.length_map]
  refine ⟨?_, fun id hid => ?_, fun id hid => ?_, hroots, fun id hid hne => ?_, fun id hid => ?_, ?_⟩
  · rw [Arena.ids, hnodes, Table.merge_of_disjoint hb.ids hdisj, Table.keys_append]
    rfl
  · rw [node, node, hnodes, Table.get?_merge_of_notMem fun hm => hdisj id hm hid]
  · rw [node, node, hnodes, Table.get?_merge_right hb.ids hid]
  · rw [Arena.childrenOf, hchildren, if_neg hne, hbelow id hid]
    rfl
  · rw [Arena.childrenOf, hchildren, if_neg fun he => hdisj id hid (hp id he),
      Table.get?_merge_right (hb.children.nodup_iff.2 hb.ids) (hb.children.mem_iff.2 hid)]
    rfl
  · refine ⟨place (a.siblings parent).length position, isPlace_place _ _, ?_, above, _, _, _, below,
      (hF.walk_splits hS _).1, (hF.walk_splits hS _).2.1, (hF.walk_splits hS _).2.2, hG.walk, ?_,
      fun h => (hS.root h).2, fun p h => ?_⟩
    · cases parent with
      | none => exact hinserted rfl
      | some p =>
        rw [Arena.siblings, Arena.childrenOf, hchildren, if_pos rfl, hbelow p (hp p rfl)]
        rfl
    · rw [(hF.withSubtree hG hc).walk, hS.recordsOf_attachAll, hlength]
    · obtain ⟨before, r, -, habove, hid, -⟩ := hS.node p h
      exact ⟨before, r, habove, hid⟩

lemma Stands.exists_sibling {q : Option String} {t : Tree} (h : a.Stands F)
    (ht : cells q [t] <:+: cells none F) :
    (∀ p, q = some p → p ∈ a.ids) ∧ a.parentOf t.record.id = q ∧
      ∃ S above below left right, IsBranch F q S above below ∧ S = left ++ t :: right ∧
        t.record.id ∉ rootIds left := by
  obtain ⟨r, cs⟩ := t
  have hcell : ⟨r, q, rootIds cs⟩ ∈ cells none F := ht.subset List.mem_cons_self
  have hplace : (∀ p, q = some p → p ∈ a.ids) ∧ r.id ∈ a.siblings q := by
    rcases parent_cases hcell with ⟨rfl, hroot⟩ | ⟨d, hd, rfl, hchild⟩
    · exact ⟨by simp, show r.id ∈ a.roots from h.roots ▸ hroot⟩
    · refine ⟨fun p hp => Option.some.inj hp ▸ h.mem_ids.2 (id_mem_of_cell hd), ?_⟩
      rwa [Arena.siblings, h.hasCells.childrenOf_cell hd]
  obtain ⟨S, above, below, hS⟩ := h.exists_branch hplace.1
  rw [h.siblings hS] at hplace
  obtain ⟨before, after, hsplit, hfirst⟩ := List.eq_append_cons_of_mem hplace.2
  obtain ⟨left, rest, rfl, rfl, hrest⟩ := List.map_eq_append_iff.1 hsplit
  obtain ⟨u, right, rfl, hu, rfl⟩ := List.map_eq_cons_iff.1 hrest
  -- both trees are found at the same id
  have hpart : cells q [u] <:+: cells none F := by
    refine List.IsInfix.trans ⟨cells q left, cells q right, ?_⟩ hS.part
    rw [← cells_append, ← cells_append, List.append_assoc]
    rfl
  obtain ⟨hr, hsize⟩ := h.stores_part ht
  obtain ⟨hs, hsize'⟩ := h.stores_part hpart
  have htree : a.toTree r.id = .ok (.node r cs) := toTree_of_stores hr hsize
  obtain rfl := Except.ok.inj (htree.symm.trans (hu ▸ toTree_of_stores hs hsize'))
  exact ⟨hplace.1, h.hasCells.parentOf_cell hcell, _, above, below, left, right, hS, rfl, hfirst⟩

lemma findIdx?_append_cons {left right : List String} (h : id ∉ left) :
    (left ++ id :: right).findIdx? (· == id) = some left.length := by
  have hleft : left.findIdx? (· == id) = none :=
    List.findIdx?_eq_none_iff.2 fun x hx => beq_eq_false_iff_ne.2 fun heq => h (heq ▸ hx)
  rw [List.findIdx?_append, hleft, List.findIdx?_cons, beq_self_eq_true, if_pos rfl]
  simp

lemma insertAt_behind {α : Type} (left right new : List α) (x : α) :
    insertAt (left ++ x :: right) new (some (left.length + 1)) = left ++ x :: (new ++ right) := by
  have hplace : place (left ++ x :: right).length (some (left.length + 1 : ℤ)) = left.length + 1 := by
    rw [place, if_neg (by omega), List.length_append, List.length_cons]
    omega
  rw [insertAt, hplace, List.take_length_add_append, List.drop_length_add_append, List.append_assoc,
    List.append_assoc]
  rfl

lemma duplicate_of_copySubtree {b : Arena} {n : ℕ} (hb : a.copySubtree id rename = .ok b)
    (hparent : a.parentOf id = parent) (hn : (a.siblings parent).findIdx? (· == id) = some n) :
    a.duplicate id rename = a.withSubtree b parent (some (n + 1)) := by
  cases parent <;> simp only [Arena.siblings] at hn <;>
    simp only [Arena.duplicate, hb, hparent, hn, bind, Except.bind]

/-- The records of a copy stand behind those of what is copied. -/
lemma Stands.exists_duplicate (h : a.Stands F) (hid : id ∈ a.ids) :
    ∃ records, a.walkAt id = .ok records ∧
      ∀ rename : String → String, Set.InjOn rename {x | x ∈ records.map (·.id)} →
        (∀ r ∈ records, rename r.id ∉ a.ids) → ∃ c above below,
          a.duplicate id rename = .ok c ∧ a.walk = .ok (above ++ records ++ below) ∧
          c.walk = .ok (above ++ records ++ records.map (fun r => { r with id := rename r.id }) ++
            below) := by
  obtain ⟨t, q, rfl, hpart, -⟩ := h.exists_part hid
  refine ⟨_, h.walkAt hpart, fun rename hinj hnew => ?_⟩
  obtain ⟨hparent, hparentOf, S, above, below, left, right, hS, rfl, hfirst⟩ := h.exists_sibling hpart
  obtain ⟨copy, hcopy, hcarries⟩ := h.exists_copy hpart
    ((injOn_ids_iff (h.nodup.sublist (ids_subtree hpart).sublist)).1 hinj)
  have hfresh : ∀ id ∈ copy.ids, id ∉ a.ids := by
    intro id hid
    rw [hcarries.mem_ids, show idsOf [t.rename rename] = _ from ids_rename rename [t]] at hid
    obtain ⟨x, hx, rfl⟩ := List.mem_map.1 hid
    obtain ⟨r, hr, rfl⟩ := List.mem_map.1 hx
    exact hnew r hr
  obtain ⟨c, hc⟩ : ∃ c, a.withSubtree copy q (some (left.length + 1)) = .ok c :=
    exists_withSubtree_iff.2 ⟨hfresh, hparent⟩
  have hsiblings := h.siblings hS
  rw [rootIds, List.map_append, List.map_cons] at hsiblings
  refine ⟨c, above ++ Tree.recordsOf left, Tree.recordsOf right ++ below, ?_, ?_, ?_⟩
  · have hindex : (a.siblings q).findIdx? (· == t.record.id) = some left.length := by
      rw [hsiblings, ← List.length_map (·.record.id)]
      exact findIdx?_append_cons hfirst
    exact (duplicate_of_copySubtree hcopy hparentOf hindex).trans hc
  · rw [h.walk, hS.records, recordsOf_append, ← List.singleton_append (l := right), recordsOf_append]
    simp
  · rw [(Carries.withSubtree h hcarries hc).walk, hS.attach, insertAt_behind,
      recordsOf_append, ← List.singleton_append (l := _ ++ right), recordsOf_append, recordsOf_append,
      show Tree.recordsOf [t.rename rename] = _ from recordsOf_rename rename [t]]
    simp only [List.append_assoc]

end Attaching

/-- Putting one arena into another puts its walk as a whole into the walk through the other and changes
nothing else. It is refused where the two share an id or the parent is not there. A copy of a tree
follows the tree in the walk. -/
theorem walks_splice {a : Arena} (ha : a.WellFormed) :
    (∀ (b : Arena) (parent : Option String) (position : Option ℤ), b.WellFormed →
      ((∃ e, a.withSubtree b parent position = .error e) ↔
        (∃ id ∈ a.ids, id ∈ b.ids) ∨ ∃ p, parent = some p ∧ p ∉ a.ids) ∧
      ∀ c, a.withSubtree b parent position = .ok c → a.Spliced b c parent position) ∧
    ∀ id ∈ a.ids, ∃ records, a.walkAt id = .ok records ∧
      ∀ rename : String → String, Set.InjOn rename {x | x ∈ records.map (·.id)} →
        (∀ r ∈ records, rename r.id ∉ a.ids) → ∃ c above below,
          a.duplicate id rename = .ok c ∧ a.walk = .ok (above ++ records ++ below) ∧
          c.walk = .ok (above ++ records ++ records.map (fun r => { r with id := rename r.id }) ++
            below) := by
  refine ⟨fun b parent position hb => ⟨?_, fun c hc => spliced_of_withSubtree ha hb hc⟩, ?_⟩
  · have herror : (∃ e, a.withSubtree b parent position = .error e) ↔
        ¬ ∃ c, a.withSubtree b parent position = .ok c := by
      cases a.withSubtree b parent position <;> simp
    rw [herror, exists_withSubtree_iff, not_and_or]
    push Not
    exact or_congr ⟨fun ⟨id, hb, ha⟩ => ⟨id, ha, hb⟩, fun ⟨id, ha, hb⟩ => ⟨id, hb, ha⟩⟩ Iff.rfl
  · obtain ⟨F, hF⟩ := ha.exists_stands
    exact fun id hid => hF.exists_duplicate hid

def thirdItem : Record := ⟨"k", "li", [], [], .str "three"⟩

/-- An item put before the last one, and a copy of the first one. -/
theorem walks_splice_itemList :
    ∃ a, ofSources [.tree itemList] = .ok a ∧ a.WellFormed ∧
      (∃ c, a.withSubtree (.ofRecord thirdItem) (some "l") (some (-1)) = .ok c ∧
        c.childrenOf "l" = ["i", "k", "j"]) ∧
      ∃ c, a.duplicate "i" = .ok c ∧
        c.walk.toOption.map (·.map (·.id)) = some ["l", "i", "i-copy", "j"] := by
  obtain ⟨a, ha, hholds⟩ := exists_itemList
  have hids : ∀ id, id ∈ a.ids ↔ id ∈ ["l", "i", "j"] := fun id =>
    (HasCells.keys_perm hholds.hasCells.nodes).mem_iff
  obtain ⟨hput, hcopy⟩ := walks_splice hholds.wellFormed
  refine ⟨a, ha, hholds.wellFormed, ?_, ?_⟩
  · have hitem : (Arena.ofRecord thirdItem).Holds [.node thirdItem []] := .ofRecord (by decide)
    have hchildren : a.childrenOf "l" = ["i", "j"] :=
      hholds.hasCells.childrenOf_cell (c := ⟨itemList.record, none, ["i", "j"]⟩) List.mem_cons_self
    obtain ⟨c, hc⟩ : ∃ c, a.withSubtree (.ofRecord thirdItem) (some "l") (some (-1)) = .ok c := by
      simp only [exists_withSubtree_iff, hids]
      decide
    obtain ⟨n, hn, hsiblings, -⟩ := ((hput _ _ _ hitem.wellFormed).2 c hc).walk
    simp only [Arena.siblings, hchildren, IsPlace] at hn hsiblings
    obtain rfl : n = 1 := by
      simp at hn
      omega
    exact ⟨c, hc, hsiblings⟩
  · have hpart : cells (some "l") [.node ⟨"i", "li", [], [], .str "one"⟩ []] <:+:
        cells none [itemList] := ⟨[_], [_], rfl⟩
    obtain ⟨records, hrecords, hduplicate⟩ := hcopy "i" ((hids "i").2 (by decide))
    obtain rfl := Except.ok.inj (hrecords.symm.trans (hholds.stands.walkAt hpart))
    obtain ⟨c, above, below, hc, hwalk, hcopied⟩ := hduplicate copyId
      (by simp [Tree.recordsOf, Tree.records]) (by
        simp only [hids]
        decide)
    have hsplit := Except.ok.inj (hwalk.symm.trans hholds.stands.walk)
    refine ⟨c, hc, ?_⟩
    rw [hcopied]
    rcases above with _ | ⟨r, _ | ⟨s, _ | ⟨u, rest⟩⟩⟩ <;>
      simp [itemList, Tree.recordsOf, Tree.records] at hsplit
    obtain ⟨rfl, rfl⟩ := hsplit
    rfl

end Arena

end ViewWriter.Schema
