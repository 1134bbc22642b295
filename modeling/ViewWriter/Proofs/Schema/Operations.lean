import ViewWriter.Proofs.Schema.Holding

/-! Operations on arenas as operations on the forests they stand for. -/

namespace ViewWriter.Schema.Arena

/-- The parent of a copy of a record in a copy of the tree at `id`. A parent without an id counts as
none. -/
def copiedParent (a : Arena) (id : String) (rename : String → String) (r : Record) : Option String :=
  if r.id == id then none else ((a.parentOf r.id).filter (· != "")).map rename

lemma nodup_rename {rename : String → String} {t : Tree} {q : Option String}
    (h : ((idsOf [t]).map rename).Nodup) :
    ((cells q [t.rename rename]).map (·.record.id)).Nodup := by
  rwa [map_id_cells, show idsOf [t.rename rename] = _ from ids_rename rename [t]]

namespace Stands

variable {a b c : Arena} {F G : List Tree} {id p : String} {t : Tree} {r : Record}

lemma nodup (h : a.Stands F) : (idsOf F).Nodup := map_id_cells none F ▸ h.hasCells.nodup

lemma mem_ids (h : a.Stands F) : id ∈ a.ids ↔ id ∈ idsOf F := by
  rw [← map_id_cells none]
  exact (HasCells.keys_perm h.hasCells.nodes).mem_iff

lemma has_iff (h : a.Stands F) : a.has id = true ↔ id ∈ idsOf F := by
  rw [h.hasCells.has_iff, ← map_id_cells none, List.mem_map]

lemma stores (h : a.Stands F) : a.Stores none F := fun _ hc =>
  ⟨h.hasCells.node_cell hc, h.hasCells.childrenOf_cell hc⟩

lemma size_eq (h : a.Stands F) : a.size = (Tree.recordsOf F).length := by
  rw [size, h.hasCells.nodes.length_eq, ← map_record_cells none, entries, List.length_map,
    List.length_map]

lemma empty : Arena.empty.Stands [] := ⟨⟨.nil, .nil, .nil, List.nodup_nil⟩, rfl⟩

lemma ofRecord (r : Record) : (Arena.ofRecord r).Stands [.node r []] where
  hasCells := ⟨.refl _, .refl _, .refl _, List.nodup_singleton _⟩
  roots := rfl

lemma addRoot (h : a.Stands F) (hb : a.addRoot t = .ok b) : b.Stands (F ++ [t]) := by
  simp only [Arena.addRoot, bind_eq_ok_iff] at hb
  obtain ⟨b', htree, hb⟩ := hb
  cases hb
  have htrees : addTrees none a [t] = .ok b' := by
    simp only [addTrees, htree]
    rfl
  obtain ⟨hcells, hroots⟩ := h.hasCells.addTrees htrees
  refine ⟨?_, ?_⟩
  · rw [cells_append]
    exact hcells.withRoots _
  · rw [rootIds_append, ← h.roots, ← hroots]
    rfl

lemma disjoint_of_withSubtree {parent : Option String} {position : Option Int} (ha : a.Stands F)
    (hb : b.Stands G) (hc : a.withSubtree b parent position = .ok c) :
    ∀ id ∈ idsOf G, id ∉ idsOf F := by
  simp only [Arena.withSubtree] at hc
  split_ifs at hc with hclash
  simp only [Bool.not_eq_true', Bool.not_eq_false, List.isEmpty_iff, List.filter_eq_nil_iff] at hclash
  exact fun id hid hid' => hclash id (hb.mem_ids.2 hid) (ha.has_iff.2 hid')

lemma has_of_withSubtree {position : Option Int} (ha : a.Stands F)
    (hc : a.withSubtree b (some p) position = .ok c) : p ∈ idsOf F := by
  simp only [Arena.withSubtree] at hc
  split_ifs at hc with _ hhas
  rwa [Bool.not_eq_true', Bool.not_eq_false, ha.has_iff] at hhas

lemma withSubtree {parent : Option String} {position : Option Int} (ha : a.Stands F)
    (hb : b.Stands G) (hc : a.withSubtree b parent position = .ok c) :
    c.Stands (attachAll parent G position F) := by
  have hdisj := ha.disjoint_of_withSubtree hb hc
  have hboth := ha.hasCells.merge hb.hasCells (fun c hc d hd he =>
    hdisj _ (id_mem_of_cell hd) (he ▸ id_mem_of_cell hc)) a.roots
  cases parent with
  | none =>
    simp only [Arena.withSubtree] at hc
    split_ifs at hc
    cases hc
    rw [attachAll]
    refine ⟨?_, ?_⟩
    · exact (hboth.perm (cells_insertAt none F G position).symm).withRoots _
    · rw [rootIds, insertAt_map, ← rootIds, ← rootIds, ← ha.roots, ← hb.roots]
  | some p =>
    have hhas := ha.has_of_withSubtree hc
    simp only [Arena.withSubtree] at hc
    split_ifs at hc
    cases hc
    rw [attachAll]
    refine ⟨?_, ?_⟩
    · have hp : ∃ c ∈ cells none F ++ cells none G, c.record.id = p := by
        obtain ⟨c, hc, hid⟩ := exists_cell_of_id none hhas
        exact ⟨c, List.mem_append_left _ hc, hid⟩
      have hroots : ∀ id ∈ b.roots, ∃ c ∈ (cells none F ++ cells none G).map
          (·.extend p b.roots position), c.record.id = id := by
        intro id hid
        rw [hb.roots] at hid
        obtain ⟨c, hc, hcid⟩ := exists_cell_of_id none ((rootIds_sublist G).subset hid)
        refine ⟨_, List.mem_map.2 ⟨c, List.mem_append_right _ hc, rfl⟩, ?_⟩
        rwa [Cell.extend_record]
      have hmoved := (hboth.extendChildren hp b.roots position).moveRoots (q := some p) hroots
      refine hmoved.perm ?_
      rw [hb.roots, map_graft hb.nodup hdisj hhas]
      exact (cells_graft (onceIn_of_mem ha.nodup hhas)).symm
    · rw [rootIds_graft, ← ha.roots]

lemma stores_part (h : a.Stands F) {q : Option String} (ht : cells q [t] <:+: cells none F) :
    a.Stores q [t] ∧ (Tree.recordsOf [t]).length ≤ a.size.succ := by
  refine ⟨fun c hc => h.stores c (ht.subset hc), ?_⟩
  rw [h.size_eq, ← map_record_cells q, ← map_record_cells none]
  exact Nat.le_succ_of_le (ht.map _).length_le

lemma walkAt (h : a.Stands F) {q : Option String} (ht : cells q [t] <:+: cells none F) :
    a.walkAt t.record.id = .ok (Tree.recordsOf [t]) :=
  walkFrom_of_visits (visits_roots (h.stores_part ht).1) (h.stores_part ht).2

lemma exists_cell_of_node {r : Record} (h : a.Stands F) (hr : a.node id = .ok r) :
    ∃ c ∈ cells none F, c.record.id = id := by
  by_contra hno
  have hnone : a.nodes.get? id = none :=
    Table.get?_of_notMem fun hm => hno ((HasCells.mem_keys h.hasCells.nodes).1 hm)
  rw [node, hnone] at hr
  cases hr

lemma exists_cell_of_walkAt {records : List Record} (h : a.Stands F)
    (hrecords : a.walkAt id = .ok records) :
    ∃ c ∈ cells none F, c.record.id = id := by
  obtain ⟨r, hr, -⟩ := bind_eq_ok_iff.1 hrecords
  exact h.exists_cell_of_node hr

lemma copySubtree_eq {rename : String → String} (h : a.Stands F) {q : Option String}
    (ht : cells q [t] <:+: cells none F) :
    a.copySubtree t.record.id rename =
      if ((idsOf [t]).map rename).Nodup then .ok {
        nodes := Table.ofEntries (entries (·.record) (cells none [t.rename rename]))
        children := Table.ofEntries (entries (·.children) (cells none [t.rename rename]))
        parents := Table.ofEntries ((Tree.recordsOf [t]).map fun r =>
          (rename r.id, a.copiedParent t.record.id rename r))
        roots := [rename t.record.id] }
      else .error .duplicateCopies := by
  have hnodup : (idsOf [t]).Nodup := h.nodup.sublist (ids_subtree ht).sublist
  have hnodes := map_recordsOf_rename (q := q) rename hnodup (g := (·.record))
    (f := fun r => { r with id := rename r.id }) fun d _ => by simp [Cell.rename]
  have hchildren := map_recordsOf_rename (q := q) rename hnodup (g := (·.children))
    (f := fun r => (a.childrenOf r.id).map rename) fun d hd => by
      simp [Cell.rename, h.hasCells.childrenOf_cell (ht.subset hd)]
  have hids : (Tree.recordsOf [t]).map (fun r => rename r.id) = (idsOf [t]).map rename := by
    rw [idsOf, List.map_map]
    rfl
  rw [← hnodes, ← hchildren, Arena.copySubtree, h.walkAt ht]
  simp only [bind, Except.bind, hids, bne_iff_ne, ne_eq, length_eraseDups_iff]
  split_ifs <;> rfl

end Stands

/-- The arena stands for a forest but for the parents in it. -/
def Carries (a : Arena) (F : List Tree) : Prop := ∃ parents, Stands { a with parents } F

namespace Carries

variable {a : Arena} {F : List Tree}

lemma roots (h : a.Carries F) : a.roots = rootIds F := by
  obtain ⟨_, h⟩ := h
  exact h.roots

lemma stores (h : a.Carries F) : a.Stores none F := by
  obtain ⟨_, h⟩ := h
  exact h.stores

lemma size_eq (h : a.Carries F) : a.size = (Tree.recordsOf F).length := by
  obtain ⟨_, h⟩ := h
  exact h.size_eq

lemma mem_ids (h : a.Carries F) {id : String} : id ∈ a.ids ↔ id ∈ idsOf F := by
  obtain ⟨_, h⟩ := h
  exact h.mem_ids

lemma walk (h : a.Carries F) : a.walk = .ok (Tree.recordsOf F) := by
  rw [Arena.walk, h.roots]
  exact walkFrom_of_visits (visits_roots h.stores) (h.size_eq ▸ Nat.le_succ _)

end Carries

namespace Stands

variable {a : Arena} {F : List Tree}

lemma carries (h : a.Stands F) : a.Carries F := ⟨a.parents, h⟩

lemma walk (h : a.Stands F) : a.walk = .ok (Tree.recordsOf F) := h.carries.walk

end Stands

namespace Holds

variable {a b c : Arena} {F G : List Tree} {id p : String} {t : Tree} {r : Record}

lemma stands (h : a.Holds F) : a.Stands F := ⟨h.hasCells, h.roots⟩

lemma empty : Arena.empty.Holds [] :=
  ⟨Stands.empty.hasCells, Stands.empty.roots, List.not_mem_nil⟩

lemma ofRecord (hr : r.id ≠ "") : (Arena.ofRecord r).Holds [.node r []] :=
  ⟨(Stands.ofRecord r).hasCells, (Stands.ofRecord r).roots, fun h => hr (List.mem_singleton.1 h).symm⟩

lemma addRoot (h : a.Holds F) (ht : "" ∉ idsOf [t]) (hb : a.addRoot t = .ok b) :
    b.Holds (F ++ [t]) := by
  have hstands := h.stands.addRoot hb
  refine ⟨hstands.hasCells, hstands.roots, ?_⟩
  rw [ids_append, List.mem_append, not_or]
  exact ⟨h.nonempty, ht⟩

lemma withSubtree {parent : Option String} {position : Option Int} (ha : a.Holds F)
    (hb : b.Holds G) (hc : a.withSubtree b parent position = .ok c) :
    c.Holds (attachAll parent G position F) := by
  have hstands := ha.stands.withSubtree hb.stands hc
  have hnonempty : "" ∉ idsOf F ++ idsOf G := by
    rw [List.mem_append, not_or]
    exact ⟨ha.nonempty, hb.nonempty⟩
  refine ⟨hstands.hasCells, hstands.roots, ?_⟩
  cases parent with
  | none => rwa [attachAll, (ids_insertAt F G position).mem_iff]
  | some p =>
    have honce : OnceIn p F := onceIn_of_mem ha.stands.nodup (ha.stands.has_of_withSubtree hc)
    rwa [attachAll, (ids_graft honce).mem_iff]

/-- No parent has an id that does not count. -/
lemma filter_parent {d : Cell} (h : a.Holds F) (hd : d ∈ cells none F) :
    d.parent.filter (· != "") = d.parent := by
  rcases parent_cases hd with ⟨hq, -⟩ | ⟨e, he, hparent, -⟩
  · rw [hq]
    rfl
  · have hid : e.record.id ≠ "" := fun heq => h.nonempty (heq ▸ id_mem_of_cell he)
    rw [hparent]
    exact Option.filter_some_pos (bne_iff_ne.2 hid)

lemma copySubtree {rename : String → String} (h : a.Holds F) (hrename : ∀ id, rename id ≠ "")
    (hb : a.copySubtree id rename = .ok b) :
    ∃ t q, t.record.id = id ∧ cells q [t] <:+: cells none F ∧ b.Holds [t.rename rename] := by
  obtain ⟨records, hrecords, -⟩ := bind_eq_ok_iff.1 hb
  obtain ⟨c, hc, rfl⟩ := h.stands.exists_cell_of_walkAt hrecords
  obtain ⟨cs, -, hpart⟩ := exists_subtree hc
  refine ⟨.node c.record cs, c.parent, rfl, hpart, ?_⟩
  have hcopy : a.copySubtree (Tree.node c.record cs).record.id rename = _ :=
    h.stands.copySubtree_eq hpart
  rw [show (Tree.node c.record cs).record.id = c.record.id from rfl, hb] at hcopy
  split_ifs at hcopy with hdistinct
  cases hcopy
  have hnodup : (idsOf [.node c.record cs]).Nodup := h.stands.nodup.sublist (ids_subtree hpart).sublist
  have hparents := map_recordsOf_rename (q := c.parent) rename hnodup (g := (·.parent))
    (f := a.copiedParent c.record.id rename) fun d hd => by
      rw [copiedParent, h.hasCells.parentOf_cell (hpart.subset hd), h.filter_parent (hpart.subset hd)]
      by_cases hroot : d.record.id = c.record.id <;>
        simp [Cell.rename, Cell.moveTo, Tree.record, hroot]
  refine ⟨?_, rfl, ?_⟩
  · rw [hparents]
    exact HasCells.ofEntries (nodup_rename hdistinct) _
  · intro hempty
    rw [show idsOf [Tree.rename rename _] = _ from ids_rename rename [_]] at hempty
    obtain ⟨old, -, hold⟩ := List.mem_map.1 hempty
    exact hrename old hold

lemma duplicate {rename : String → String} (h : a.Holds F) (hrename : ∀ id, rename id ≠ "")
    (hb : a.duplicate id rename = .ok b) :
    ∃ t q position, t.record.id = id ∧ cells q [t] <:+: cells none F ∧
      b.Holds (attachAll (a.parentOf id) [t.rename rename] position F) := by
  simp only [Arena.duplicate, bind_eq_ok_iff] at hb
  obtain ⟨copy, hcopy, hb⟩ := hb
  obtain ⟨t, q, hid, hpart, hholds⟩ := h.copySubtree hrename hcopy
  split at hb
  · exact ⟨t, q, _, hid, hpart, h.withSubtree hholds hb⟩
  · cases hb

end Holds

end ViewWriter.Schema.Arena
