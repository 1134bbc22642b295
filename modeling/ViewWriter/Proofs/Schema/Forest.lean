import Mathlib.Data.List.Infix
import Mathlib.Data.List.Nodup
import Mathlib.Tactic.Lemma
import ViewWriter.Proofs.Number.Shortest
import ViewWriter.Proofs.Traversal
import ViewWriter.Schema.Arena

/-! Forests as lists of linked records. The links go where the trees branch, and a walk from the roots
of a stored forest ends and meets its records in order. -/

namespace ViewWriter.Schema

/-- A record with its links. -/
structure Cell where
  record : Record
  parent : Option String
  children : List String

def rootIds (F : List Tree) : List String := F.map (·.record.id)

mutual

/-- The records of a tree below `parent`, each before those below it, with their links. -/
def treeCells (parent : Option String) : Tree → List Cell
  | .node r cs => ⟨r, parent, rootIds cs⟩ :: cells (some r.id) cs

def cells (parent : Option String) : List Tree → List Cell
  | [] => []
  | t :: rest => treeCells parent t ++ cells parent rest

end

/-- The ids of a forest, each before those below it. -/
def idsOf (F : List Tree) : List String := (Tree.recordsOf F).map (·.id)

/-- A forest grows by a tree whose children are a forest. -/
@[elab_as_elim]
theorem forest_induction {motive : List Tree → Prop} (nil : motive [])
    (cons : ∀ r cs rest, motive cs → motive rest → motive (.node r cs :: rest)) (F : List Tree) :
    motive F :=
  match F with
  | [] => nil
  | .node r cs :: rest =>
    cons r cs rest (forest_induction nil cons cs) (forest_induction nil cons rest)

section Links

variable {q : Option String} {F G : List Tree} {c d : Cell} {id : String}

lemma rootIds_cons (r : Record) (cs rest : List Tree) :
    rootIds (.node r cs :: rest) = r.id :: rootIds rest := rfl

lemma rootIds_append (F G : List Tree) : rootIds (F ++ G) = rootIds F ++ rootIds G :=
  List.map_append

lemma cells_cons (q : Option String) (r : Record) (cs rest : List Tree) :
    cells q (.node r cs :: rest) = ⟨r, q, rootIds cs⟩ :: (cells (some r.id) cs ++ cells q rest) :=
  rfl

lemma recordsOf_cons (r : Record) (cs rest : List Tree) :
    Tree.recordsOf (.node r cs :: rest) = r :: (Tree.recordsOf cs ++ Tree.recordsOf rest) := rfl

lemma recordsOf_append (F G : List Tree) :
    Tree.recordsOf (F ++ G) = Tree.recordsOf F ++ Tree.recordsOf G := by
  induction F with
  | nil => rfl
  | cons t rest ih => rw [List.cons_append, Tree.recordsOf, Tree.recordsOf, ih, List.append_assoc]

lemma mem_recordsOf {r : Record} : r ∈ Tree.recordsOf F ↔ ∃ t ∈ F, r ∈ Tree.recordsOf [t] := by
  induction F with
  | nil => simp [Tree.recordsOf]
  | cons t rest ih =>
    rw [← List.singleton_append, recordsOf_append, List.mem_append, ih]
    simp

lemma ids_cons (r : Record) (cs rest : List Tree) :
    idsOf (.node r cs :: rest) = r.id :: (idsOf cs ++ idsOf rest) := by
  rw [idsOf, recordsOf_cons, List.map_cons, List.map_append]
  rfl

lemma cells_append (q : Option String) (F G : List Tree) :
    cells q (F ++ G) = cells q F ++ cells q G := by
  induction F with
  | nil => rfl
  | cons t rest ih =>
    obtain ⟨r, cs⟩ := t
    rw [List.cons_append, cells_cons, cells_cons, ih, List.cons_append, List.append_assoc]

lemma map_record_cells (q : Option String) (F : List Tree) :
    (cells q F).map (·.record) = Tree.recordsOf F := by
  induction F using forest_induction generalizing q with
  | nil => rfl
  | cons r cs rest ihc ihr =>
    rw [cells_cons, recordsOf_cons, List.map_cons, List.map_append, ihc, ihr]

lemma map_id_cells (q : Option String) (F : List Tree) :
    (cells q F).map (·.record.id) = idsOf F := by
  rw [idsOf, ← map_record_cells q, List.map_map]
  rfl

lemma id_mem_of_cell (h : c ∈ cells q F) : c.record.id ∈ idsOf F := by
  rw [← map_id_cells q]
  exact List.mem_map.2 ⟨c, h, rfl⟩

lemma exists_cell_of_id (q : Option String) (h : id ∈ idsOf F) :
    ∃ c ∈ cells q F, c.record.id = id := by
  rw [← map_id_cells q] at h
  exact List.mem_map.1 h

lemma ids_append (F G : List Tree) : idsOf (F ++ G) = idsOf F ++ idsOf G := by
  rw [idsOf, recordsOf_append, List.map_append]
  rfl

lemma rootIds_sublist (F : List Tree) : (rootIds F).Sublist (idsOf F) := by
  induction F with
  | nil => exact .slnil
  | cons t rest ih =>
    obtain ⟨r, cs⟩ := t
    rw [rootIds_cons, ids_cons]
    exact (ih.trans (List.sublist_append_right _ _)).cons_cons _

lemma parent_cases (h : c ∈ cells q F) :
    c.parent = q ∧ c.record.id ∈ rootIds F ∨
      ∃ d ∈ cells q F, c.parent = some d.record.id ∧ c.record.id ∈ d.children := by
  induction F using forest_induction generalizing q with
  | nil => cases h
  | cons r cs rest ihc ihr =>
    rw [cells_cons] at h ⊢
    rw [rootIds_cons]
    rcases List.mem_cons.1 h with rfl | h
    · exact .inl ⟨rfl, List.mem_cons_self⟩
    rcases List.mem_append.1 h with h | h
    · rcases ihc h with ⟨hq, hroot⟩ | ⟨d, hd, hparent, hchild⟩
      · exact .inr ⟨_, List.mem_cons_self, hq, hroot⟩
      · exact .inr ⟨d, List.mem_cons_of_mem _ (List.mem_append_left _ hd), hparent, hchild⟩
    · rcases ihr h with ⟨hq, hroot⟩ | ⟨d, hd, hparent, hchild⟩
      · exact .inl ⟨hq, List.mem_cons_of_mem _ hroot⟩
      · exact .inr ⟨d, List.mem_cons_of_mem _ (List.mem_append_right _ hd), hparent, hchild⟩

lemma exists_cell_of_root (h : id ∈ rootIds F) : ∃ c ∈ cells q F, c.record.id = id ∧ c.parent = q := by
  induction F with
  | nil => cases h
  | cons t rest ih =>
    obtain ⟨r, cs⟩ := t
    rw [cells_cons]
    rcases List.mem_cons.1 h with rfl | h
    · exact ⟨_, List.mem_cons_self, rfl, rfl⟩
    · obtain ⟨c, hc, hid⟩ := ih h
      exact ⟨c, List.mem_cons_of_mem _ (List.mem_append_right _ hc), hid⟩

/-- Below a node stands a part of the forest, whose roots are the node's children. -/
lemma exists_subtree (h : c ∈ cells q F) :
    ∃ cs, c.children = rootIds cs ∧ cells c.parent [.node c.record cs] <:+: cells q F := by
  induction F using forest_induction generalizing q with
  | nil => cases h
  | cons r cs rest ihc ihr =>
    rw [cells_cons] at h ⊢
    rcases List.mem_cons.1 h with rfl | h
    · refine ⟨cs, rfl, [], cells q rest, ?_⟩
      rw [cells_cons, cells, List.append_nil]
      rfl
    rcases List.mem_append.1 h with h | h
    · obtain ⟨below, hbelow, hpart⟩ := ihc h
      refine ⟨below, hbelow, hpart.trans ?_⟩
      exact ⟨[⟨r, q, rootIds cs⟩], cells q rest, rfl⟩
    · obtain ⟨below, hbelow, hpart⟩ := ihr h
      refine ⟨below, hbelow, hpart.trans ?_⟩
      exact ((List.suffix_append _ _).trans (List.suffix_cons _ _)).isInfix

lemma exists_cell_of_child (hd : d ∈ cells q F) (h : id ∈ d.children) :
    ∃ c ∈ cells q F, c.record.id = id ∧ c.parent = some d.record.id := by
  obtain ⟨cs, hcs, hpart⟩ := exists_subtree hd
  obtain ⟨c, hc, hid⟩ := exists_cell_of_root (q := some d.record.id) (hcs ▸ h)
  refine ⟨c, hpart.subset ?_, hid⟩
  rw [cells_cons]
  exact List.mem_cons_of_mem _ (List.mem_append_left _ hc)

lemma ids_subtree {t : Tree} {q' : Option String} (h : cells q' [t] <:+: cells q F) :
    idsOf [t] <:+: idsOf F := by
  rw [← map_id_cells q', ← map_id_cells q]
  exact h.map _

lemma nodup_children (hn : (idsOf F).Nodup) (hd : d ∈ cells q F) : d.children.Nodup := by
  obtain ⟨cs, hcs, hpart⟩ := exists_subtree hd
  have hsub := hn.sublist (ids_subtree hpart).sublist
  rw [ids_cons] at hsub
  rw [hcs]
  exact (hsub.of_cons.of_append_left).sublist (rootIds_sublist cs)

end Links

end ViewWriter.Schema

namespace ViewWriter.Schema.Arena

/-- Walking from `pending` on, the ids below each node before the others, comes to an end after
meeting `records`. -/
inductive Visits (a : Arena) : List String → List Record → Prop
  | done : Visits a [] []
  | visit {id : String} {r : Record} {pending : List String} {records : List Record}
      (hnode : a.node id = .ok r) (h : Visits a (a.childrenOf id ++ pending) records) :
      Visits a (id :: pending) (r :: records)

/-- The nodes of a forest with the ids below them are in the arena. -/
def Stores (a : Arena) (q : Option String) (F : List Tree) : Prop :=
  ∀ c ∈ cells q F, a.node c.record.id = .ok c.record ∧ a.childrenOf c.record.id = c.children

variable {a : Arena} {q : Option String} {F : List Tree} {pending : List String}
  {records : List Record}

lemma walkFrom_nil (a : Arena) (limit : ℕ) : a.walkFrom limit [] = .ok [] := by
  cases limit <;> rfl

lemma walkFrom_of_visits (h : Visits a pending records) {limit : ℕ}
    (hlimit : records.length ≤ limit) : a.walkFrom limit pending = .ok records := by
  induction h generalizing limit with
  | done => exact walkFrom_nil a limit
  | visit hnode _ ih =>
    cases limit with
    | zero => cases hlimit
    | succ limit =>
      simp only [walkFrom, hnode, ih (Nat.le_of_succ_le_succ hlimit)]
      rfl

lemma visits_forest (h : a.Stores q F) (hrest : Visits a pending records) :
    Visits a (rootIds F ++ pending) (Tree.recordsOf F ++ records) := by
  induction F using forest_induction generalizing q pending records with
  | nil => exact hrest
  | cons r cs rest ihc ihr =>
    rw [Stores, cells_cons] at h
    obtain ⟨hnode, hchildren⟩ := h _ List.mem_cons_self
    have hbelow : a.Stores (some r.id) cs := fun c hc =>
      h c (List.mem_cons_of_mem _ (List.mem_append_left _ hc))
    have hbeside : a.Stores q rest := fun c hc =>
      h c (List.mem_cons_of_mem _ (List.mem_append_right _ hc))
    have hvisits := ihc hbelow (ihr hbeside hrest)
    rw [recordsOf_cons, rootIds_cons, List.cons_append, List.cons_append, List.append_assoc]
    refine .visit hnode ?_
    rw [hchildren]
    exact hvisits

lemma visits_roots (h : a.Stores q F) : Visits a (rootIds F) (Tree.recordsOf F) := by
  have hvisits := visits_forest h .done
  rwa [List.append_nil, List.append_nil] at hvisits

end ViewWriter.Schema.Arena

/-! Trees of documents. Every node of a document that is read has an id that counts. -/

namespace ViewWriter

namespace Json

lemma toString_int_ne_empty (i : ℤ) : toString i ≠ "" := by
  have hdigits : ∀ n : ℕ, Nat.repr n ≠ "" := fun n h =>
    Nat.toDigits_ne_nil (String.ofList_eq_empty_iff.1 h)
  cases i with
  | ofNat n => exact hdigits n
  | negSucc n =>
    intro h
    have hsign : "-" ++ Nat.repr (n + 1) = "" := h
    simp at hsign

lemma quoted_ne_empty (v : Json) : v.quoted ≠ "" := by
  cases v with
  | null => simp [quoted]
  | bool b => cases b <;> simp [quoted]
  | int i =>
    rw [quoted]
    exact toString_int_ne_empty i
  | float x =>
    rw [quoted]
    exact NumberFormat.write_ne_empty (by decide) (by decide) x
  | str s => simp [quoted, Text.quoted]
  | arr items => simp [quoted]
  | obj fields => simp [quoted]

lemma display_eq_empty_iff {v : Json} : v.display = "" ↔ v = .str "" := by
  cases v with
  | str s => simp [display]
  | _ => simp [display, quoted_ne_empty]

end Json

namespace Schema.Tree

lemma recordOf_ne_empty {fields : Table Json} {r : Record} (h : recordOf fields = .ok r) :
    r.id ≠ "" ∧ r.type ≠ "" := by
  simp only [recordOf] at h
  split at h
  · cases h
  · cases h
  · rename_i hempty
    split at h
    · split_ifs at h with htype
      simp only [bind_eq_ok_iff] at h
      obtain ⟨props, -, style, -, h⟩ := h
      obtain rfl := Except.ok.inj h
      exact ⟨fun hid => hempty (Json.display_eq_empty_iff.1 hid), by simpa using htype⟩
    · cases h

lemma forall_records_ofJson {P : Record → Prop}
    (hP : ∀ {fields : Table Json} {r : Record}, recordOf fields = .ok r → P r) (v : Json) :
    ∀ t, ofJson v = .ok t → ∀ r ∈ recordsOf [t], P r := by
  have hnode : ∀ {r : Record} {cs : List Tree}, P r → (∀ s ∈ recordsOf cs, P s) →
      ∀ s ∈ recordsOf [.node r cs], P s := by
    intro r cs hr hcs s hs
    rw [recordsOf_cons, recordsOf, List.append_nil] at hs
    rcases List.mem_cons.1 hs with rfl | hs
    · exact hr
    · exact hcs s hs
  have hnil : ∀ s ∈ recordsOf [], P s := fun s hs => by cases hs
  refine ofJson.induct (fun v => ∀ t, ofJson v = .ok t → ∀ r ∈ recordsOf [t], P r)
    (fun vs => ∀ ts, ofItems vs = .ok ts → ∀ r ∈ recordsOf ts, P r) ?_ ?_ ?_ ?_ v
  · intro members ih t h
    rw [ofJson, bind_eq_ok_iff] at h
    obtain ⟨r, hr, h⟩ := h
    split at h
    · rename_i items hitems
      obtain ⟨ts, hts, h⟩ := bind_eq_ok_iff.1 h
      obtain rfl := Except.ok.inj h
      exact hnode (hP hr) (ih items hitems ts hts)
    · split_ifs at h
      obtain rfl := Except.ok.inj h
      exact hnode (hP hr) hnil
    · obtain rfl := Except.ok.inj h
      exact hnode (hP hr) hnil
  · intro v hv t h
    rw [ofJson.eq_2 v hv] at h
    cases h
  · intro ts h
    rw [ofItems] at h
    obtain rfl := Except.ok.inj h
    exact hnil
  · intro v rest ihv ihrest ts h
    simp only [ofItems, bind_eq_ok_iff] at h
    obtain ⟨t, ht, more, hmore, h⟩ := h
    obtain rfl := Except.ok.inj h
    intro r hr
    rw [← List.singleton_append, recordsOf_append] at hr
    exact (List.mem_append.1 hr).elim (ihv t ht r) (ihrest more hmore r)

lemma ids_ofJson (v : Json) (t : Tree) (h : ofJson v = .ok t) : "" ∉ idsOf [t] := by
  intro hempty
  obtain ⟨r, hr, hid⟩ := List.mem_map.1 hempty
  exact forall_records_ofJson (P := fun r => r.id ≠ "") (fun h => (recordOf_ne_empty h).1) v t h r hr
    hid

end Schema.Tree

end ViewWriter
