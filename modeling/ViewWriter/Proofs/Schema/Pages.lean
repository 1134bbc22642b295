import Mathlib.Data.List.Forall2
import Mathlib.Tactic.SplitIfs
import ViewWriter.Proofs.Schema.Attaching
import ViewWriter.Proofs.Schema.Storage

/-! Pages. The sections of a page are trees below one root, in their order, and they make a page if
each is one tree and no id is in the page twice. -/

namespace ViewWriter.Schema

/-- A source is one tree. -/
def Source.IsTree (s : Source) (t : Tree) : Prop := ∃ a, Arena.ofSource s = .ok a ∧ a.Stands [t]

def pageTree (root type : String) (trees : List Tree) : Tree :=
  .node ⟨root, type, [], [], .null⟩ trees

lemma Source.IsTree.unique {s : Source} {t u : Tree} (ht : s.IsTree t) (hu : s.IsTree u) : t = u := by
  obtain ⟨a, ha, ht⟩ := ht
  obtain ⟨b, hb, hu⟩ := hu
  cases ha.symm.trans hb
  exact (List.cons.inj (Except.ok.inj (ht.mapM_toTree.symm.trans hu.mapM_toTree))).1

lemma isTree_of_ofSource {t : Tree} {a : Arena} (h : Arena.ofSource (.tree t) = .ok a) :
    (Source.tree t).IsTree t := by
  refine ⟨a, h, ?_⟩
  have hadded : [Source.tree t].foldlM Arena.addSource Arena.empty = .ok a := h
  rw [List.foldlM_cons, bind_eq_ok_iff] at hadded
  obtain ⟨b, hb, hadded⟩ := hadded
  cases hadded
  exact Arena.Stands.empty.addRoot hb

namespace Arena

variable {a b : Arena} {root type : String} {sections : List Source} {trees : List Tree} {s : Source}
  {t : Tree}

lemma Stands.exists_tree {F : List Tree} (h : a.Stands F) (hroots : a.roots.length = 1) :
    ∃ t, F = [t] := by
  rw [h.roots, rootIds, List.length_map] at hroots
  exact List.length_eq_one_iff.1 hroots

lemma insertAt_end {α : Type} (xs new : List α) : insertAt xs new none = xs ++ new := by
  rw [insertAt, place, List.take_length, List.drop_length, List.append_nil]

lemma graftAll_pageTree (new : List Tree) :
    graftAll root new none [pageTree root type trees] = [pageTree root type (trees ++ new)] := by
  rw [pageTree, graftAll_cons, if_pos rfl, insertAt_end]
  rfl

lemma ids_pageTree : idsOf [pageTree root type trees] = root :: idsOf trees := by
  rw [pageTree, ids_cons]
  simp [idsOf, Tree.recordsOf]

lemma stands_addSection (ha : a.Stands [pageTree root type trees]) (hs : s.Standing)
    (h : addSection root a s = .ok b) :
    ∃ t, s.IsTree t ∧ b.Stands [pageTree root type (trees ++ [t])] := by
  obtain ⟨part, hpart, h⟩ := bind_eq_ok_iff.1 h
  obtain ⟨F, hF⟩ := stands_ofSource hs hpart
  split_ifs at h with hroots
  · cases h
  · obtain ⟨t, rfl⟩ := hF.exists_tree (by simpa using hroots)
    refine ⟨t, ⟨part, hpart, hF⟩, ?_⟩
    have hb := ha.withSubtree hF h
    rwa [attachAll, graftAll_pageTree] at hb

lemma exists_addSection (ha : a.Stands [pageTree root type trees]) (ht : s.IsTree t)
    (hnew : ∀ id ∈ idsOf [t], id ∉ root :: idsOf trees) : ∃ b, addSection root a s = .ok b := by
  obtain ⟨part, hpart, hstands⟩ := ht
  have hroots : part.roots.length = 1 := by rw [hstands.roots]; rfl
  obtain ⟨b, hb⟩ : ∃ b, a.withSubtree part (some root) none = .ok b := by
    refine exists_withSubtree_iff.2 ⟨fun id hid => ?_, ?_⟩
    · rw [ha.mem_ids, ids_pageTree]
      exact hnew id (hstands.mem_ids.1 hid)
    · rintro p ⟨⟩
      rw [ha.mem_ids, ids_pageTree]
      exact List.mem_cons_self
  refine ⟨b, bind_eq_ok_iff.2 ⟨part, hpart, ?_⟩⟩
  rw [if_neg (by simpa using hroots)]
  exact hb

lemma stands_addSections (hs : ∀ s ∈ sections, s.Standing)
    (ha : a.Stands [pageTree root type trees]) (h : sections.foldlM (addSection root) a = .ok b) :
    ∃ more, List.Forall₂ Source.IsTree sections more ∧
      b.Stands [pageTree root type (trees ++ more)] := by
  induction sections generalizing a trees with
  | nil =>
    cases h
    exact ⟨[], .nil, by rwa [List.append_nil]⟩
  | cons s rest ih =>
    rw [List.foldlM_cons, bind_eq_ok_iff] at h
    obtain ⟨c, hc, h⟩ := h
    rw [List.forall_mem_cons] at hs
    obtain ⟨t, ht, hstands⟩ := stands_addSection ha hs.1 hc
    obtain ⟨more, hmore, hb⟩ := ih hs.2 hstands h
    refine ⟨t :: more, .cons ht hmore, ?_⟩
    rwa [List.append_assoc] at hb

lemma exists_addSections {more : List Tree} (hs : ∀ s ∈ sections, s.Standing)
    (hmore : List.Forall₂ Source.IsTree sections more) (ha : a.Stands [pageTree root type trees])
    (hn : (root :: idsOf (trees ++ more)).Nodup) :
    ∃ b, sections.foldlM (addSection root) a = .ok b := by
  induction hmore generalizing a trees with
  | nil => exact ⟨a, rfl⟩
  | @cons s t rest more ht _ ih =>
    rw [List.forall_mem_cons] at hs
    have hfirst : trees ++ t :: more = (trees ++ [t]) ++ more := by simp
    rw [hfirst] at hn
    have hnew : ∀ id ∈ idsOf [t], id ∉ root :: idsOf trees := by
      rw [ids_append, ids_append, ← List.cons_append, ← List.cons_append] at hn
      exact fun id hid hold => (List.nodup_append.1 hn.of_append_left).2.2 id hold id hid rfl
    obtain ⟨b, hb⟩ := exists_addSection ha ht hnew
    obtain ⟨u, hu, hstands⟩ := stands_addSection ha hs.1 hb
    obtain rfl := ht.unique hu
    obtain ⟨c, hc⟩ := ih hs.2 hstands hn
    exact ⟨c, by rw [List.foldlM_cons, hb]; exact hc⟩

lemma stands_ofPageRecord (root type : String) :
    (Arena.ofRecord ⟨root, type, [], [], .null⟩).Stands [pageTree root type []] := .ofRecord _

/-- A page stands for the trees of its sections below its root. -/
lemma exists_trees_of_wrap (hs : ∀ s ∈ sections, s.Standing) (h : wrap sections root type = .ok a) :
    ∃ trees, List.Forall₂ Source.IsTree sections trees ∧ a.Stands [pageTree root type trees] :=
  stands_addSections hs (stands_ofPageRecord root type) h

/-- Sections make a page if they are trees in which no id is found twice, and not that of the root. -/
lemma exists_wrap (hs : ∀ s ∈ sections, s.Standing) (htrees : List.Forall₂ Source.IsTree sections trees)
    (hn : (root :: idsOf trees).Nodup) : ∃ a, wrap sections root type = .ok a :=
  exists_addSections hs htrees (stands_ofPageRecord root type) hn

section Walks

variable (h : a.Stands [pageTree root type trees])

include h

lemma walkAt_page : a.walkAt root = .ok (pageTree root type trees).records := by
  have hwalk := h.walkAt (t := pageTree root type trees) List.infix_rfl
  rwa [Tree.recordsOf, Tree.recordsOf, List.append_nil] at hwalk

lemma childrenOf_page : a.childrenOf root = rootIds trees :=
  h.hasCells.childrenOf_cell (c := ⟨⟨root, type, [], [], .null⟩, none, rootIds trees⟩)
    List.mem_cons_self

lemma walkAt_sections : (rootIds trees).mapM a.walkAt = .ok (trees.map (·.records)) := by
  have hpart (t : Tree) (ht : t ∈ trees) : a.walkAt t.record.id = .ok t.records := by
    obtain ⟨before, after, rfl⟩ := List.append_of_mem ht
    have hinfix : cells (some root) [t] <:+: cells none [pageTree root type (before ++ [t] ++ after)] := by
      rw [pageTree, cells_cons, cells_append, cells_append]
      exact ((List.infix_append _ _ _).trans (List.prefix_append _ _).isInfix).trans
        (List.suffix_cons _ _).isInfix
    rw [List.append_assoc] at hinfix
    have hwalk := h.walkAt hinfix
    rwa [Tree.recordsOf, Tree.recordsOf, List.append_nil] at hwalk
  rw [mapM_eq_ok_iff, rootIds, List.forall₂_map_left_iff, List.forall₂_map_right_iff,
    List.forall₂_same]
  exact hpart

lemma nodup_page : (root :: idsOf trees).Nodup := by
  have hnodup := h.nodup
  rwa [ids_pageTree] at hnodup

end Walks

end Arena

end ViewWriter.Schema
