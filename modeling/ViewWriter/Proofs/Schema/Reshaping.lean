import Mathlib.Tactic.SplitIfs
import ViewWriter.Proofs.Schema.Forest

/-! Forests under other ids, below another node, and put into other forests. -/

namespace ViewWriter.Schema

open Arena

section Renaming

mutual

/-- The same tree with other ids. -/
def Tree.rename (f : String → String) : Tree → Tree
  | .node r cs => .node { r with id := f r.id } (renameAll f cs)

def renameAll (f : String → String) : List Tree → List Tree
  | [] => []
  | t :: rest => t.rename f :: renameAll f rest

end

def Cell.rename (f : String → String) (c : Cell) : Cell :=
  ⟨{ c.record with id := f c.record.id }, c.parent.map f, c.children.map f⟩

variable (f : String → String)

lemma renameAll_cons (r : Record) (cs rest : List Tree) :
    renameAll f (.node r cs :: rest) =
      .node { r with id := f r.id } (renameAll f cs) :: renameAll f rest := rfl

lemma rootIds_rename (F : List Tree) : rootIds (renameAll f F) = (rootIds F).map f := by
  induction F with
  | nil => rfl
  | cons t rest ih =>
    obtain ⟨r, cs⟩ := t
    rw [renameAll_cons, rootIds_cons, rootIds_cons, ih, List.map_cons]

lemma cells_rename (q : Option String) (F : List Tree) :
    cells (q.map f) (renameAll f F) = (cells q F).map (Cell.rename f) := by
  induction F using forest_induction generalizing q with
  | nil => rfl
  | cons r cs rest ihc ihr =>
    rw [renameAll_cons, cells_cons, cells_cons, ihr, List.map_cons, List.map_append, ← ihc,
      rootIds_rename]
    rfl

lemma recordsOf_rename (F : List Tree) :
    Tree.recordsOf (renameAll f F) = (Tree.recordsOf F).map fun r => { r with id := f r.id } := by
  have hcells : cells none (renameAll f F) = (cells none F).map (Cell.rename f) :=
    cells_rename f none F
  rw [← map_record_cells none, hcells, ← map_record_cells none F, List.map_map, List.map_map]
  rfl

lemma ids_rename (F : List Tree) : idsOf (renameAll f F) = (idsOf F).map f := by
  rw [idsOf, recordsOf_rename, idsOf, List.map_map, List.map_map]
  rfl

end Renaming

section Moving

variable {q q' : Option String} {roots : List String} {F : List Tree}

/-- A cell that is put below another one if it is one of the roots. -/
def Cell.moveTo (c : Cell) (parent : Option String) (roots : List String) : Cell :=
  if c.record.id ∈ roots then { c with parent } else c

@[simp] lemma Cell.moveTo_record (c : Cell) : (c.moveTo q roots).record = c.record := by
  rw [Cell.moveTo]
  split_ifs <;> rfl

@[simp] lemma Cell.moveTo_children (c : Cell) : (c.moveTo q roots).children = c.children := by
  rw [Cell.moveTo]
  split_ifs <;> rfl

lemma map_moveTo_of_notMem (h : ∀ id ∈ idsOf F, id ∉ roots) :
    (cells q F).map (·.moveTo q' roots) = cells q F :=
  map_eq_self fun _ hc => if_neg (h _ (id_mem_of_cell hc))

lemma map_moveTo (hn : (idsOf F).Nodup) (h : ∀ id ∈ idsOf F, id ∈ roots ↔ id ∈ rootIds F) :
    (cells q F).map (·.moveTo q' roots) = cells q' F := by
  induction F with
  | nil => rfl
  | cons t rest ih =>
    obtain ⟨r, cs⟩ := t
    rw [ids_cons, List.nodup_cons, List.nodup_append, List.mem_append, not_or] at hn
    obtain ⟨⟨hcs, hrest⟩, -, hnrest, hdisj⟩ := hn
    simp only [ids_cons, List.mem_cons, List.mem_append, rootIds_cons] at h
    have hbelow : ∀ id ∈ idsOf cs, id ∉ roots := by
      intro id hid hroot
      rcases (h id (.inr (.inl hid))).1 hroot with rfl | hroot
      · exact hcs hid
      · exact hdisj id hid id ((rootIds_sublist rest).subset hroot) rfl
    have hbeside : ∀ id ∈ idsOf rest, id ∈ roots ↔ id ∈ rootIds rest := by
      intro id hid
      rw [h id (.inr (.inr hid)), or_iff_right]
      rintro rfl
      exact hrest hid
    rw [cells_cons, cells_cons, List.map_cons, List.map_append, map_moveTo_of_notMem hbelow,
      ih hnrest hbeside, Cell.moveTo, if_pos ((h r.id (.inl rfl)).2 (.inl rfl))]

lemma cells_rename_root (f : String → String) {t : Tree} (hn : (idsOf [t]).Nodup) :
    cells none [t.rename f] =
      (cells q [t]).map fun c => (c.moveTo none [t.record.id]).rename f := by
  have hroot : (cells q [t]).map (·.moveTo none [t.record.id]) = cells none [t] :=
    map_moveTo hn fun _ _ => Iff.rfl
  rw [show cells none [t.rename f] = _ from cells_rename f none [t], ← hroot, List.map_map]
  rfl

end Moving

section Insertion

variable {α β : Type}

lemma insertAt_perm (xs new : List α) (position : Option Int) :
    (insertAt xs new position).Perm (xs ++ new) := by
  let n := place xs.length position
  have hswap : (new ++ xs.drop n).Perm (xs.drop n ++ new) := List.perm_append_comm
  have hmove := hswap.append_left (xs.take n)
  rwa [← List.append_assoc, ← List.append_assoc, List.take_append_drop] at hmove

lemma insertAt_map (f : α → β) (xs new : List α) (position : Option Int) :
    (insertAt xs new position).map f = insertAt (xs.map f) (new.map f) position := by
  simp only [insertAt, List.map_append, List.map_take, List.map_drop, List.length_map]

lemma cells_eq_flatMap (q : Option String) (F : List Tree) :
    cells q F = F.flatMap (treeCells q) := by
  induction F with
  | nil => rfl
  | cons t rest ih => rw [cells, List.flatMap_cons, ih]

lemma cells_insertAt (q : Option String) (F G : List Tree) (position : Option Int) :
    (cells q (insertAt F G position)).Perm (cells q F ++ cells q G) := by
  rw [← cells_append, cells_eq_flatMap, cells_eq_flatMap]
  exact (insertAt_perm F G position).flatMap_right _

lemma ids_insertAt (F G : List Tree) (position : Option Int) :
    (idsOf (insertAt F G position)).Perm (idsOf F ++ idsOf G) := by
  have hcells := (cells_insertAt none F G position).map (·.record.id)
  rwa [List.map_append, map_id_cells, map_id_cells, map_id_cells] at hcells

end Insertion

section Grafting

mutual

/-- The tree with more trees among the children of the node `p`. -/
def Tree.graft (p : String) (new : List Tree) (position : Option Int) : Tree → Tree
  | .node r cs =>
    .node r (if r.id = p then insertAt cs new position else graftAll p new position cs)

def graftAll (p : String) (new : List Tree) (position : Option Int) : List Tree → List Tree
  | [] => []
  | t :: rest => t.graft p new position :: graftAll p new position rest

end

/-- The forest with more trees among its roots, or below the node `parent`. -/
def attachAll (parent : Option String) (new : List Tree) (position : Option Int)
    (F : List Tree) : List Tree :=
  match parent with
  | none => insertAt F new position
  | some p => graftAll p new position F

def Cell.extend (c : Cell) (p : String) (new : List String) (position : Option Int) : Cell :=
  if c.record.id = p then { c with children := insertAt c.children new position } else c

variable {p : String} {position : Option Int} {F G : List Tree} {q : Option String}

@[simp] lemma Cell.extend_record (new : List String) (c : Cell) :
    (c.extend p new position).record = c.record := by
  rw [Cell.extend]
  split_ifs <;> rfl

@[simp] lemma Cell.extend_parent (new : List String) (c : Cell) :
    (c.extend p new position).parent = c.parent := by
  rw [Cell.extend]
  split_ifs <;> rfl

lemma graftAll_cons (r : Record) (cs rest : List Tree) :
    graftAll p G position (.node r cs :: rest) =
      .node r (if r.id = p then insertAt cs G position else graftAll p G position cs) ::
        graftAll p G position rest := rfl

lemma rootIds_graft (F : List Tree) : rootIds (graftAll p G position F) = rootIds F := by
  induction F with
  | nil => rfl
  | cons t rest ih =>
    obtain ⟨r, cs⟩ := t
    rw [graftAll_cons, rootIds_cons, rootIds_cons, ih]

lemma graftAll_of_notMem (h : p ∉ idsOf F) : graftAll p G position F = F := by
  induction F using forest_induction with
  | nil => rfl
  | cons r cs rest ihc ihr =>
    rw [ids_cons, List.mem_cons, List.mem_append, not_or, not_or] at h
    rw [graftAll_cons, if_neg (Ne.symm h.1), ihc h.2.1, ihr h.2.2]

lemma map_extend_of_notMem {new : List String} (h : p ∉ idsOf F) :
    (cells q F).map (·.extend p new position) = cells q F :=
  map_eq_self fun c hc => if_neg fun he : c.record.id = p => h (he ▸ id_mem_of_cell hc)

/-- One node of a forest has the id `p`: it is a root, or it is under a root or behind it. -/
inductive OnceIn (p : String) : List Tree → Prop
  | root {r : Record} {cs rest : List Tree} (hr : r.id = p) (hcs : p ∉ idsOf cs)
      (hrest : p ∉ idsOf rest) : OnceIn p (.node r cs :: rest)
  | under {r : Record} {cs rest : List Tree} (hr : r.id ≠ p) (hcs : OnceIn p cs)
      (hrest : p ∉ idsOf rest) : OnceIn p (.node r cs :: rest)
  | behind {r : Record} {cs rest : List Tree} (hr : r.id ≠ p) (hcs : p ∉ idsOf cs)
      (hrest : OnceIn p rest) : OnceIn p (.node r cs :: rest)

lemma onceIn_of_mem (hn : (idsOf F).Nodup) (hp : p ∈ idsOf F) : OnceIn p F := by
  induction F using forest_induction with
  | nil => cases hp
  | cons r cs rest ihc ihr =>
    rw [ids_cons, List.nodup_cons, List.nodup_append, List.mem_append, not_or] at hn
    obtain ⟨⟨hcs, hrest⟩, hncs, hnrest, hdisj⟩ := hn
    by_cases hr : r.id = p
    · exact .root hr (hr ▸ hcs) (hr ▸ hrest)
    · rw [ids_cons, List.mem_cons, List.mem_append, or_iff_right (Ne.symm hr)] at hp
      rcases hp with hp | hp
      · exact .under hr (ihc hncs hp) fun hm => hdisj p hp p hm rfl
      · exact .behind hr (fun hm => hdisj p hm p hp rfl) (ihr hnrest hp)

lemma cells_graft (hp : OnceIn p F) : (cells q (graftAll p G position F)).Perm
    ((cells q F).map (·.extend p (rootIds G) position) ++ cells (some p) G) := by
  induction hp generalizing q with
  | @root r cs rest hr hcs hrest =>
    subst hr
    rw [graftAll_cons, if_pos rfl, graftAll_of_notMem hrest, cells_cons, cells_cons, List.map_cons,
      List.map_append, map_extend_of_notMem hcs, map_extend_of_notMem hrest, Cell.extend, if_pos rfl,
      rootIds, insertAt_map, List.cons_append, List.append_assoc]
    refine .cons _ (((cells_insertAt _ cs G position).append_right _).trans ?_)
    rw [List.append_assoc]
    exact .append_left _ List.perm_append_comm
  | @under r cs rest hr _ hrest ih =>
    rw [graftAll_cons, if_neg hr, graftAll_of_notMem hrest, cells_cons, cells_cons, rootIds_graft,
      List.map_cons, List.map_append, map_extend_of_notMem hrest, Cell.extend, if_neg hr,
      List.cons_append, List.append_assoc]
    refine .cons _ ((ih.append_right _).trans ?_)
    rw [List.append_assoc]
    exact .append_left _ List.perm_append_comm
  | @behind r cs rest hr hcs _ ih =>
    rw [graftAll_cons, if_neg hr, graftAll_of_notMem hcs, cells_cons, cells_cons, List.map_cons,
      List.map_append, map_extend_of_notMem hcs, Cell.extend, if_neg hr, List.cons_append,
      List.append_assoc]
    exact .cons _ (.append_left _ ih)

/-- The two changes of links that put a forest below a node of another one. -/
lemma map_graft (hG : (idsOf G).Nodup) (hdisj : ∀ id ∈ idsOf G, id ∉ idsOf F) (hp : p ∈ idsOf F) :
    ((cells q F ++ cells q G).map (·.extend p (rootIds G) position)).map
        (·.moveTo (some p) (rootIds G)) =
      (cells q F).map (·.extend p (rootIds G) position) ++ cells (some p) G := by
  rw [List.map_append, List.map_append, map_extend_of_notMem fun h => hdisj p h hp,
    map_moveTo hG fun _ _ => Iff.rfl]
  congr 1
  refine map_eq_self fun c hc => if_neg ?_
  obtain ⟨d, hd, rfl⟩ := List.mem_map.1 hc
  rw [Cell.extend_record]
  exact fun hroot => hdisj _ ((rootIds_sublist G).subset hroot) (id_mem_of_cell hd)

lemma ids_graft (hp : OnceIn p F) :
    (idsOf (graftAll p G position F)).Perm (idsOf F ++ idsOf G) := by
  have hgraft : (cells none (graftAll p G position F)).Perm _ := cells_graft hp
  have hcells := hgraft.map (·.record.id)
  rw [List.map_append, List.map_map, map_id_cells, map_id_cells] at hcells
  simpa only [Function.comp_def, Cell.extend_record, map_id_cells] using hcells

end Grafting

end ViewWriter.Schema
