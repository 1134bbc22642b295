import ViewWriter.Proofs.Schema.Forest
import ViewWriter.Proofs.Schema.Operations

/-! Arenas made by any operations on arenas are well formed, and well formed arenas stand for forests. -/

namespace ViewWriter.Schema

namespace Arena

/-- Arenas made from documents, trees and other arenas. No tree, copy or root of a page has an empty
id. -/
inductive Built : Arena → Prop
  | sources {sources : List Source} {a : Arena}
      (htrees : ∀ t, .tree t ∈ sources → "" ∉ idsOf [t]) (h : ofSources sources = .ok a) : Built a
  | source {s : Source} {a : Arena} (htree : ∀ t, s = .tree t → "" ∉ idsOf [t])
      (harena : ∀ b, s = .arena b → Built b) (h : ofSource s = .ok a) : Built a
  | wrapped {sections : List Source} {root type : String} {a : Arena}
      (htrees : ∀ t, .tree t ∈ sections → "" ∉ idsOf [t])
      (harenas : ∀ b, .arena b ∈ sections → Built b) (hroot : root ≠ "")
      (h : wrap sections root type = .ok a) : Built a
  | copied {a b : Arena} {id : String} {rename : String → String} (ha : Built a)
      (hrename : ∀ id, rename id ≠ "") (h : a.copySubtree id rename = .ok b) : Built b
  | attached {a b c : Arena} {parent : Option String} {position : Option Int} (ha : Built a)
      (hb : Built b) (h : a.withSubtree b parent position = .ok c) : Built c
  | duplicated {a b : Arena} {id : String} {rename : String → String} (ha : Built a)
      (hrename : ∀ id, rename id ≠ "") (h : a.duplicate id rename = .ok b) : Built b

/-- The three tables and the roots of an arena agree, and a walk from the roots ends and meets every
node once. -/
structure WellFormed (a : Arena) : Prop where
  ids : a.ids.Nodup
  children : a.children.keys.Perm a.ids
  parents : a.parents.keys.Perm a.ids
  roots : a.roots.Nodup
  mem_roots : ∀ id, id ∈ a.roots ↔ id ∈ a.ids ∧ a.parentOf id = none
  mem_childrenOf : ∀ p c, c ∈ a.childrenOf p ↔ a.parentOf c = some p
  childrenOf : ∀ p, (a.childrenOf p).Nodup
  walk : ∃ records, Visits a a.roots records ∧ a.walk = .ok records ∧
    (records.map (·.id)).Perm a.ids ∧ ∀ r ∈ records, a.node r.id = .ok r

namespace Holds

variable {a b : Arena} {F : List Tree} {c p : String}

lemma childrenOf_eq_nil (h : a.Holds F) (hp : p ∉ idsOf F) : a.childrenOf p = [] := by
  have hnone : a.children.get? p = none := by
    refine Table.get?_of_notMem fun hm => hp ?_
    obtain ⟨c, hc, rfl⟩ := (HasCells.mem_keys h.hasCells.children).1 hm
    exact id_mem_of_cell hc
  rw [Arena.childrenOf, hnone]
  rfl

lemma parentOf_eq_none (h : a.Holds F) (hc : c ∉ idsOf F) : a.parentOf c = none := by
  have hnone : a.parents.get? c = none := by
    refine Table.get?_of_notMem fun hm => hc ?_
    obtain ⟨d, hd, rfl⟩ := (HasCells.mem_keys h.hasCells.parents).1 hm
    exact id_mem_of_cell hd
  rw [Arena.parentOf, hnone]
  rfl

lemma mem_childrenOf (h : a.Holds F) : c ∈ a.childrenOf p ↔ a.parentOf c = some p := by
  constructor
  · intro hc
    by_cases hp : p ∈ idsOf F
    · obtain ⟨d, hd, rfl⟩ := exists_cell_of_id none hp
      rw [h.hasCells.childrenOf_cell hd] at hc
      obtain ⟨e, he, rfl, hparent⟩ := exists_cell_of_child hd hc
      rw [h.hasCells.parentOf_cell he, hparent]
    · rw [h.childrenOf_eq_nil hp] at hc
      cases hc
  · intro hc
    by_cases hmem : c ∈ idsOf F
    · obtain ⟨e, he, rfl⟩ := exists_cell_of_id none hmem
      rw [h.hasCells.parentOf_cell he] at hc
      rcases parent_cases he with ⟨hq, -⟩ | ⟨d, hd, hparent, hchild⟩
      · rw [hq] at hc
        cases hc
      · obtain rfl := Option.some.inj (hparent.symm.trans hc)
        rwa [h.hasCells.childrenOf_cell hd]
    · rw [h.parentOf_eq_none hmem] at hc
      cases hc

lemma mem_roots (h : a.Holds F) : c ∈ a.roots ↔ c ∈ a.ids ∧ a.parentOf c = none := by
  rw [h.roots, h.stands.mem_ids]
  constructor
  · intro hroot
    obtain ⟨d, hd, rfl, hparent⟩ := exists_cell_of_root (q := none) hroot
    exact ⟨id_mem_of_cell hd, by rw [h.hasCells.parentOf_cell hd, hparent]⟩
  · rintro ⟨hmem, hparent⟩
    obtain ⟨d, hd, rfl⟩ := exists_cell_of_id none hmem
    rw [h.hasCells.parentOf_cell hd] at hparent
    rcases parent_cases hd with ⟨-, hroot⟩ | ⟨e, -, he, -⟩
    · exact hroot
    · cases hparent.symm.trans he

lemma nodup_childrenOf (h : a.Holds F) : (a.childrenOf p).Nodup := by
  by_cases hp : p ∈ idsOf F
  · obtain ⟨d, hd, rfl⟩ := exists_cell_of_id none hp
    rw [h.hasCells.childrenOf_cell hd]
    exact nodup_children h.stands.nodup hd
  · rw [h.childrenOf_eq_nil hp]
    exact .nil

lemma keys_perm {α : Type} {t : Table α} {f : Cell → α} (h : a.Holds F)
    (ht : t.Perm (entries f (cells none F))) : t.keys.Perm a.ids :=
  (HasCells.keys_perm ht).trans (HasCells.keys_perm h.hasCells.nodes).symm

lemma wellFormed (h : a.Holds F) : a.WellFormed where
  ids := h.hasCells.nodup_keys h.hasCells.nodes
  children := h.keys_perm h.hasCells.children
  parents := h.keys_perm h.hasCells.parents
  roots := h.roots ▸ h.stands.nodup.sublist (rootIds_sublist F)
  mem_roots := fun _ => h.mem_roots
  mem_childrenOf := fun _ _ => h.mem_childrenOf
  childrenOf := fun _ => h.nodup_childrenOf
  walk := by
    refine ⟨Tree.recordsOf F, ?_, h.stands.walk, ?_, ?_⟩
    · rw [h.roots]
      exact visits_roots h.stands.stores
    · have hids : (Tree.recordsOf F).map (·.id) = (cells none F).map (·.record.id) :=
        (map_id_cells none F).symm
      rw [hids]
      exact (HasCells.keys_perm h.hasCells.nodes).symm
    · intro r hr
      rw [← map_record_cells none] at hr
      obtain ⟨d, hd, rfl⟩ := List.mem_map.1 hr
      exact h.hasCells.node_cell hd

end Holds

section Sources

variable {a b : Arena} {s : Source}

lemma holds_addSource (htree : ∀ t, s = .tree t → "" ∉ idsOf [t]) (h : ∃ F, a.Holds F)
    (hb : a.addSource s = .ok b) : ∃ F, b.Holds F := by
  obtain ⟨F, hF⟩ := h
  obtain ⟨t, ht, hb⟩ := bind_eq_ok_iff.1 hb
  refine ⟨_, hF.addRoot ?_ hb⟩
  cases s with
  | document v => exact Tree.ids_ofJson v t ht
  | tree u =>
    obtain rfl := Except.ok.inj ht
    exact htree u rfl
  | arena c => cases ht

lemma holds_ofSources {sources : List Source} (htrees : ∀ t, .tree t ∈ sources → "" ∉ idsOf [t])
    (h : ofSources sources = .ok a) : ∃ F, a.Holds F := by
  refine foldlM_keeps (P := fun a => ∃ F, a.Holds F) ?_ ⟨[], .empty⟩ h
  intro s hs b c hb hc
  exact holds_addSource (fun t ht => htrees t (ht ▸ hs)) hb hc

lemma holds_ofSource (htree : ∀ t, s = .tree t → "" ∉ idsOf [t])
    (harena : ∀ b, s = .arena b → ∃ F, b.Holds F) (h : ofSource s = .ok a) : ∃ F, a.Holds F := by
  have hsingle : ofSources [s] = .ok a → ∃ F, a.Holds F :=
    holds_ofSources fun t ht => htree t (List.mem_singleton.1 ht).symm
  cases s with
  | document v => exact hsingle h
  | tree u => exact hsingle h
  | arena c =>
    obtain rfl := Except.ok.inj h
    exact harena c rfl

lemma holds_addSection {root : String} (htree : ∀ t, s = .tree t → "" ∉ idsOf [t])
    (harena : ∀ b, s = .arena b → ∃ F, b.Holds F) (h : ∃ F, a.Holds F)
    (hb : addSection root a s = .ok b) : ∃ F, b.Holds F := by
  obtain ⟨F, hF⟩ := h
  obtain ⟨part, hpart, hb⟩ := bind_eq_ok_iff.1 hb
  obtain ⟨G, hG⟩ := holds_ofSource htree harena hpart
  split_ifs at hb
  · cases hb
  · exact ⟨_, hF.withSubtree hG hb⟩

end Sources

lemma Built.holds {a : Arena} (h : Built a) : ∃ F, a.Holds F := by
  induction h with
  | sources htrees h => exact holds_ofSources htrees h
  | source htree _ h ih => exact holds_ofSource htree ih h
  | @wrapped sections root type a htrees _ hroot h ih =>
    refine foldlM_keeps (P := fun a => ∃ F, a.Holds F) ?_ ⟨_, .ofRecord hroot⟩ h
    intro s hs b c hb hc
    exact holds_addSection (fun t ht => htrees t (ht ▸ hs)) (fun b hb => ih b (hb ▸ hs)) hb hc
  | copied _ hrename h ih =>
    obtain ⟨F, hF⟩ := ih
    obtain ⟨t, -, -, -, hcopy⟩ := hF.copySubtree hrename h
    exact ⟨_, hcopy⟩
  | attached _ _ h iha ihb =>
    obtain ⟨F, hF⟩ := iha
    obtain ⟨G, hG⟩ := ihb
    exact ⟨_, hF.withSubtree hG h⟩
  | duplicated _ hrename h ih =>
    obtain ⟨F, hF⟩ := ih
    obtain ⟨t, q, position, -, -, hboth⟩ := hF.duplicate hrename h
    exact ⟨_, hboth⟩

section Forests

variable {a : Arena} {id : String} {r : Record} {pending : List String} {records : List Record}

lemma node_eq_ok_iff : a.node id = .ok r ↔ a.nodes.get? id = some r := by
  rw [node]
  cases a.nodes.get? id <;> simp

/-- A walk in which every node is found under its own id goes through a forest. -/
lemma Visits.exists_forest (h : Visits a pending records)
    (hid : ∀ {id r}, a.node id = .ok r → r.id = id) :
    ∃ F, rootIds F = pending ∧ Tree.recordsOf F = records ∧
      ∀ q, ∀ c ∈ cells q F, a.childrenOf c.record.id = c.children := by
  induction h with
  | done => exact ⟨[], rfl, rfl, fun _ _ hc => by cases hc⟩
  | @visit id r pending records hnode _ ih =>
    obtain ⟨F, hroots, hrecords, hchildren⟩ := ih
    obtain ⟨cs, rest, rfl, hcs, hrest⟩ := List.map_eq_append_iff.1 hroots
    obtain rfl := hid hnode
    refine ⟨.node r cs :: rest, ?_, ?_, fun q c hc => ?_⟩
    · rw [rootIds_cons, rootIds, hrest]
    · rw [recordsOf_cons, ← hrecords, recordsOf_append]
    · rw [cells_cons] at hc
      rcases List.mem_cons.1 hc with rfl | hc
      · exact hcs.symm
      · rcases List.mem_append.1 hc with hc | hc
        · exact hchildren (some r.id) c (cells_append _ cs rest ▸ List.mem_append_left _ hc)
        · exact hchildren q c (cells_append _ cs rest ▸ List.mem_append_right _ hc)

namespace WellFormed

lemma exists_visits (h : a.WellFormed) :
    ∃ records, Visits a a.roots records ∧ a.nodes.Perm (records.map fun r => (r.id, r)) := by
  obtain ⟨records, hvisits, -, hids, hnodes⟩ := h.walk
  refine ⟨records, hvisits, Table.perm_of_get? h.ids ?_ ?_⟩
  · rw [Table.keys, Table.keys, List.map_map]
    exact hids.symm
  · intro e he
    obtain ⟨r, hr, rfl⟩ := List.mem_map.1 he
    exact node_eq_ok_iff.1 (hnodes r hr)

lemma exists_stands (h : a.WellFormed) : ∃ F, a.Stands F := by
  obtain ⟨records, hvisits, hnodes⟩ := h.exists_visits
  have hid : ∀ {id r}, a.node id = .ok r → r.id = id := by
    intro id r hr
    obtain ⟨s, -, hs⟩ := List.mem_map.1
      (hnodes.mem_iff.1 (Table.mem_of_get? (node_eq_ok_iff.1 hr)))
    cases hs
    rfl
  obtain ⟨F, hroots, rfl, hchildren⟩ := hvisits.exists_forest hid
  have hentries : ((Tree.recordsOf F).map fun r => (r.id, r)) = entries (·.record) (cells none F) := by
    rw [entries, ← map_record_cells none, List.map_map]
    rfl
  rw [hentries] at hnodes
  -- the ids of every table are those of the forest
  have hkeys {α β : Type} {t : Table α} (ht : t.keys.Perm a.ids) (f : Cell → β) :
      t.keys.Perm (entries f (cells none F)).keys := by
    rw [keys_entries, ← keys_entries (·.record)]
    exact ht.trans (Table.keys_perm hnodes)
  have hfound {α : Type} {t : Table α} (ht : t.keys.Perm a.ids) {c : Cell} (hc : c ∈ cells none F) :
      ∃ v, t.get? c.record.id = some v := by
    refine Table.exists_get?_of_mem ((hkeys ht (·.record)).mem_iff.2 ?_)
    rw [keys_entries]
    exact List.mem_map.2 ⟨c, hc, rfl⟩
  have hparent : ∀ c ∈ cells none F, a.parentOf c.record.id = c.parent := by
    intro c hc
    rcases parent_cases hc with ⟨hq, hroot⟩ | ⟨d, hd, hparent, hchild⟩
    · rw [hq]
      exact ((h.mem_roots _).1 (hroots ▸ hroot)).2
    · rw [hparent, ← h.mem_childrenOf, hchildren none d hd]
      exact hchild
  refine ⟨F, ⟨hnodes, ?_, ?_, ?_⟩, hroots.symm⟩
  · refine Table.perm_of_get? (h.children.nodup_iff.2 h.ids) (hkeys h.children _) fun e he => ?_
    obtain ⟨c, hc, rfl⟩ := List.mem_map.1 he
    obtain ⟨v, hv⟩ := hfound h.children hc
    have hbelow := hchildren none c hc
    rw [Arena.childrenOf, hv] at hbelow
    exact hv.trans (congrArg some hbelow)
  · refine Table.perm_of_get? (h.parents.nodup_iff.2 h.ids) (hkeys h.parents _) fun e he => ?_
    obtain ⟨c, hc, rfl⟩ := List.mem_map.1 he
    obtain ⟨v, hv⟩ := hfound h.parents hc
    have habove := hparent c hc
    rw [parentOf, hv] at habove
    exact hv.trans (congrArg some habove)
  · rw [← keys_entries (·.record)]
    exact (Table.keys_perm hnodes).nodup_iff.1 h.ids

end WellFormed

end Forests

end Arena

end ViewWriter.Schema
