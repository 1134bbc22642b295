import ViewWriter.Proofs.Schema.Forest
import ViewWriter.Proofs.Schema.Reshaping
import ViewWriter.Proofs.Table

/-! What arenas hold. The three tables of an arena hold the links of one forest, and every operation
on arenas is an operation on forests. -/

namespace ViewWriter.Schema

open Arena

variable {α : Type}

/-- What the nodes have, by their ids. -/
def entries (f : Cell → α) (L : List Cell) : Table α := L.map fun c => (c.record.id, f c)

lemma keys_entries (f : Cell → α) (L : List Cell) :
    (entries f L).keys = L.map (·.record.id) := by
  rw [entries, Table.keys, List.map_map]
  rfl

lemma entries_append (f : Cell → α) (L M : List Cell) :
    entries f (L ++ M) = entries f L ++ entries f M := List.map_append

lemma entries_map (f : Cell → α) {g : Cell → Cell} (hg : ∀ c, (g c).record.id = c.record.id)
    (L : List Cell) : entries f (L.map g) = entries (fun c => f (g c)) L := by
  rw [entries, List.map_map]
  exact List.map_congr_left fun c _ => congrArg (·, f (g c)) (hg c)

lemma entries_congr {f f' : Cell → α} {L : List Cell} (h : ∀ c ∈ L, f c = f' c) :
    entries f L = entries f' L :=
  List.map_congr_left fun c hc => congrArg (c.record.id, ·) (h c hc)

lemma map_entries (f : Cell → α) (g : String → α → α) (L : List Cell) :
    (entries f L).map (fun e => (e.1, g e.1 e.2)) = entries (fun c => g c.record.id (f c)) L := by
  rw [entries, List.map_map]
  rfl

lemma map_recordsOf_rename (rename : String → String) {t : Tree} {q : Option String}
    (hn : (idsOf [t]).Nodup) {f : Record → α} {g : Cell → α}
    (h : ∀ c ∈ cells q [t], f c.record = g ((c.moveTo none [t.record.id]).rename rename)) :
    (Tree.recordsOf [t]).map (fun r => (rename r.id, f r)) =
      entries g (cells none [t.rename rename]) := by
  rw [cells_rename_root rename hn, ← map_record_cells q, entries, List.map_map, List.map_map]
  refine List.map_congr_left fun c hc => ?_
  simp [h c hc, Cell.rename]

namespace Arena

/-- The tables have the entries of these nodes, each in some order. -/
structure HasCells (a : Arena) (L : List Cell) : Prop where
  nodes : a.nodes.Perm (entries (·.record) L)
  children : a.children.Perm (entries (·.children) L)
  parents : a.parents.Perm (entries (·.parent) L)
  nodup : (L.map (·.record.id)).Nodup

/-- The arena stands for a forest. -/
structure Stands (a : Arena) (F : List Tree) : Prop where
  hasCells : a.HasCells (cells none F)
  roots : a.roots = rootIds F

/-- The arena stands for a forest, and every node has an id that counts. -/
structure Holds (a : Arena) (F : List Tree) : Prop where
  hasCells : a.HasCells (cells none F)
  roots : a.roots = rootIds F
  nonempty : "" ∉ idsOf F

namespace HasCells

variable {a b : Arena} {L M : List Cell} {c : Cell} {id : String}

lemma perm (h : a.HasCells L) (hp : L.Perm M) : a.HasCells M where
  nodes := h.nodes.trans (hp.map _)
  children := h.children.trans (hp.map _)
  parents := h.parents.trans (hp.map _)
  nodup := (hp.map _).nodup_iff.1 h.nodup

/-- The roots are no part of the tables. -/
lemma withRoots (h : a.HasCells L) (roots : List String) : { a with roots }.HasCells L where
  nodes := h.nodes
  children := h.children
  parents := h.parents
  nodup := h.nodup

lemma keys_perm {t : Table α} {f : Cell → α} (h : t.Perm (entries f L)) :
    t.keys.Perm (L.map (·.record.id)) := keys_entries f L ▸ Table.keys_perm h

lemma nodup_keys {t : Table α} {f : Cell → α} (h : a.HasCells L) (ht : t.Perm (entries f L)) :
    t.keys.Nodup := (keys_perm ht).nodup_iff.2 h.nodup

lemma mem_keys {t : Table α} {f : Cell → α} (ht : t.Perm (entries f L)) :
    id ∈ t.keys ↔ ∃ c ∈ L, c.record.id = id := by
  rw [(keys_perm ht).mem_iff, List.mem_map]

lemma get?_cell {t : Table α} {f : Cell → α} (h : a.HasCells L) (ht : t.Perm (entries f L))
    (hc : c ∈ L) : t.get? c.record.id = some (f c) :=
  Table.get?_of_mem (h.nodup_keys ht) (ht.mem_iff.2 (List.mem_map.2 ⟨c, hc, rfl⟩))

lemma node_cell (h : a.HasCells L) (hc : c ∈ L) : a.node c.record.id = .ok c.record := by
  rw [node, h.get?_cell h.nodes hc]

lemma childrenOf_cell (h : a.HasCells L) (hc : c ∈ L) : a.childrenOf c.record.id = c.children := by
  rw [childrenOf, h.get?_cell h.children hc]
  rfl

lemma parentOf_cell (h : a.HasCells L) (hc : c ∈ L) : a.parentOf c.record.id = c.parent := by
  rw [parentOf, h.get?_cell h.parents hc]
  rfl

lemma has_iff (h : a.HasCells L) : a.has id = true ↔ ∃ c ∈ L, c.record.id = id := by
  rw [has, Table.has_iff, mem_keys h.nodes]

lemma ofEntries (hn : (L.map (·.record.id)).Nodup) (roots : List String) :
    HasCells ⟨Table.ofEntries (entries (·.record) L), Table.ofEntries (entries (·.children) L),
      Table.ofEntries (entries (·.parent) L), roots⟩ L := by
  have hentries : ∀ {β : Type} (f : Cell → β),
      (Table.ofEntries (entries f L)).Perm (entries f L) := fun f =>
    List.Perm.of_eq (Table.ofEntries_of_nodup (keys_entries f L ▸ hn))
  exact ⟨hentries _, hentries _, hentries _, hn⟩

lemma addNode (h : a.HasCells L) {parent : Option String} {r : Record} {below : List String}
    (hb : addNode parent a r below = .ok b) :
    b.HasCells (L ++ [⟨r, parent, below⟩]) ∧ b.roots = a.roots := by
  rw [Arena.addNode] at hb
  split_ifs at hb with hhas
  cases hb
  have hnew : r.id ∉ L.map (·.record.id) := fun hm => hhas (h.has_iff.2 (List.mem_map.1 hm))
  refine ⟨⟨?_, ?_, ?_, ?_⟩, rfl⟩
  · rw [Table.set_of_notMem fun hm => hnew ((keys_perm h.nodes).mem_iff.1 hm), entries_append]
    exact h.nodes.append_right _
  · rw [Table.set_of_notMem fun hm => hnew ((keys_perm h.children).mem_iff.1 hm), entries_append]
    exact h.children.append_right _
  · rw [Table.set_of_notMem fun hm => hnew ((keys_perm h.parents).mem_iff.1 hm), entries_append]
    exact h.parents.append_right _
  · rw [List.map_append]
    refine List.nodup_append.2 ⟨h.nodup, List.nodup_singleton _, fun x hx y hy hxy => hnew ?_⟩
    rw [hxy, List.mem_singleton.1 hy] at hx
    exact hx

lemma addTrees (h : a.HasCells L) {parent : Option String} {F : List Tree}
    (hb : addTrees parent a F = .ok b) :
    b.HasCells (L ++ cells parent F) ∧ b.roots = a.roots := by
  induction F using forest_induction generalizing parent a b L with
  | nil =>
    cases hb
    rw [cells, List.append_nil]
    exact ⟨h, rfl⟩
  | cons r cs rest ihc ihr =>
    simp only [Arena.addTrees, addTree, bind_eq_ok_iff] at hb
    obtain ⟨tree, ⟨node, hnode, htree⟩, hrest⟩ := hb
    obtain ⟨hn, hrootsn⟩ := h.addNode hnode
    obtain ⟨ht, hrootst⟩ := ihc hn htree
    obtain ⟨hb, hrootsb⟩ := ihr ht hrest
    refine ⟨?_, hrootsb.trans (hrootst.trans hrootsn)⟩
    rw [List.append_assoc, List.append_assoc, List.singleton_append] at hb
    exact hb

lemma merge (h : a.HasCells L) (hb : b.HasCells M)
    (hdisj : ∀ c ∈ L, ∀ d ∈ M, c.record.id ≠ d.record.id) (roots : List String) :
    Arena.HasCells ⟨a.nodes.merge b.nodes, a.children.merge b.children, a.parents.merge b.parents,
      roots⟩ (L ++ M) := by
  have happend : ∀ {β : Type} {t u : Table β} {f : Cell → β}, t.Perm (entries f L) →
      u.Perm (entries f M) → (t.merge u).Perm (entries f (L ++ M)) := by
    intro β t u f ht hu
    rw [Table.merge_of_disjoint (hb.nodup_keys hu), entries_append]
    · exact ht.append hu
    · intro k hk hk'
      obtain ⟨d, hd, rfl⟩ := (mem_keys hu).1 hk
      obtain ⟨c, hc, hcd⟩ := (mem_keys ht).1 hk'
      exact hdisj c hc d hd hcd
  refine ⟨happend h.nodes hb.nodes, happend h.children hb.children, happend h.parents hb.parents, ?_⟩
  rw [List.map_append]
  refine List.nodup_append.2 ⟨h.nodup, hb.nodup, fun x hx y hy hxy => ?_⟩
  obtain ⟨c, hc, rfl⟩ := List.mem_map.1 hx
  obtain ⟨d, hd, rfl⟩ := List.mem_map.1 hy
  exact hdisj c hc d hd hxy

lemma map_nodup {g : Cell → Cell} (h : a.HasCells L) (hg : ∀ c, (g c).record.id = c.record.id) :
    ((L.map g).map (·.record.id)).Nodup := by
  rw [List.map_map, show (fun c : Cell => c.record.id) ∘ g = fun c => c.record.id from funext hg]
  exact h.nodup

lemma extendChildren (h : a.HasCells L) {p : String} (hp : ∃ c ∈ L, c.record.id = p)
    (new : List String) (position : Option Int) :
    HasCells { a with children := a.children.set p (insertAt (a.childrenOf p) new position) }
      (L.map (·.extend p new position)) := by
  have hid : ∀ c : Cell, (c.extend p new position).record.id = c.record.id := fun c => by simp
  refine ⟨?_, ?_, ?_, h.map_nodup hid⟩
  · simpa only [entries_map _ hid, Cell.extend_record] using h.nodes
  · rw [Table.set_of_mem (h.nodup_keys h.children) ((mem_keys h.children).2 hp), entries_map _ hid]
    refine (h.children.map _).trans (List.Perm.of_eq ?_)
    rw [map_entries _ fun id below => if id = p then insertAt (a.childrenOf p) new position else below]
    refine entries_congr fun c hc => ?_
    rw [Cell.extend]
    split_ifs with hcp
    · rw [← hcp, h.childrenOf_cell hc]
    · rfl
  · simpa only [entries_map _ hid, Cell.extend_parent] using h.parents

lemma moveRoots (h : a.HasCells L) {roots : List String} {q : Option String}
    (hroots : ∀ id ∈ roots, ∃ c ∈ L, c.record.id = id) :
    HasCells { a with parents := a.parents.merge (roots.map fun root => (root, q)) }
      (L.map (·.moveTo q roots)) := by
  have hid : ∀ c : Cell, (c.moveTo q roots).record.id = c.record.id := fun c => by simp
  refine ⟨?_, ?_, ?_, h.map_nodup hid⟩
  · simpa only [entries_map _ hid, Cell.moveTo_record] using h.nodes
  · simpa only [entries_map _ hid, Cell.moveTo_children] using h.children
  · rw [Table.merge_const (h.nodup_keys h.parents) fun id hm => (mem_keys h.parents).2 (hroots id hm),
      entries_map _ hid]
    refine (h.parents.map _).trans (List.Perm.of_eq ?_)
    rw [map_entries _ fun id above => if id ∈ roots then q else above]
    refine entries_congr fun c _ => ?_
    rw [Cell.moveTo]
    split_ifs <;> rfl

end HasCells

end Arena

end ViewWriter.Schema
