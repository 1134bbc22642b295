import ViewWriter.Proofs.Schema.Forest
import ViewWriter.Proofs.Schema.Operations

/-! Trees through documents and arenas and back. An arena gives back the trees that it was made from,
a document gives back the tree that it was written from, and a walk through a tree of an arena of sources
meets the records of that tree. -/

namespace ViewWriter.Schema

/-- The id is the first that has been met before. -/
def FirstRepeated (ids : List String) (id : String) : Prop :=
  ∃ met rest, ids = met ++ id :: rest ∧ met.Nodup ∧ id ∈ met

lemma FirstRepeated.append {ids : List String} {id : String} (h : FirstRepeated ids id)
    (more : List String) : FirstRepeated (ids ++ more) id := by
  obtain ⟨met, rest, rfl, hmet, hid⟩ := h
  exact ⟨met, rest ++ more, by rw [List.append_assoc, List.cons_append], hmet, hid⟩

namespace Tree

def members (r : Record) (cs : List Tree) : Table Json :=
  [("id", .str r.id), ("type", .str r.type)]
    ++ optional "props" (!r.props.isEmpty) (.obj r.props)
    ++ optional "style" (!r.style.isEmpty) (.obj r.style)
    ++ optional "children" (!cs.isEmpty) (.arr (toItems cs))
    ++ optional "content" (!r.content.isNull) r.content

lemma toJson_node (r : Record) (cs : List Tree) : toJson (.node r cs) = .obj (members r cs) := by
  rw [toJson, members]

lemma get?_optional (key other : String) (given : Bool) (v : Json) (rest : Table Json) :
    Table.get? (optional key given v ++ rest) other =
      if given = true ∧ other = key then some v else rest.get? other := by
  cases given with
  | false => simp [optional]
  | true => simp [optional, Table.get?_cons]

lemma get?_members (r : Record) (cs : List Tree) (key : String) :
    (members r cs).get? key =
      if key = "id" then some (.str r.id)
      else if key = "type" then some (.str r.type)
      else if r.props.isEmpty = false ∧ key = "props" then some (.obj r.props)
      else if r.style.isEmpty = false ∧ key = "style" then some (.obj r.style)
      else if cs.isEmpty = false ∧ key = "children" then some (.arr (toItems cs))
      else if r.content.isNull = false ∧ key = "content" then some r.content
      else none := by
  have hlast := get?_optional "content" key (!r.content.isNull) r.content []
  rw [List.append_nil] at hlast
  simp only [members, List.append_assoc, List.cons_append, List.nil_append, Table.get?_cons,
    get?_optional, hlast, Table.get?_nil, Bool.not_eq_true']

lemma objectMember_given (fields members : Table Json) (name id : String)
    (h : fields.get? name = if members.isEmpty = false then some (.obj members) else none) :
    objectMember fields name id = .ok members := by
  rw [objectMember, Json.member, h]
  cases members with
  | nil => rfl
  | cons e rest => rfl

lemma recordOf_members {r : Record} (cs : List Tree) (hid : r.id ≠ "") (htype : r.type ≠ "") :
    recordOf (members r cs) = .ok r := by
  have hprops : objectMember (members r cs) "props" r.id = .ok r.props :=
    objectMember_given _ _ _ _ (by simp [get?_members])
  have hstyle : objectMember (members r cs) "style" r.id = .ok r.style :=
    objectMember_given _ _ _ _ (by simp [get?_members])
  have hcontent : Json.member (members r cs) "content" = r.content := by
    rw [Json.member, get?_members]
    cases r.content <;> simp [Json.isNull]
  have hid' : Json.member (members r cs) "id" = .str r.id := by simp [Json.member, get?_members]
  have htype' : Json.member (members r cs) "type" = .str r.type := by
    simp [Json.member, get?_members]
  rw [recordOf, hid', htype']
  split
  · rename_i h
    cases h
  · rename_i h
    exact absurd (Json.str.inj h) hid
  · simp only [Json.display, beq_iff_eq, htype, if_false, hprops, hstyle, hcontent]
    rfl

lemma ofJson_leaf {fields : Table Json} {r : Record} (hr : recordOf fields = .ok r)
    (hnone : fields.lookup "children" = none) : ofJson (.obj fields) = .ok (.node r []) := by
  rw [ofJson, hr]
  simp only [bind, Except.bind]
  split
  · simp_all
  · simp_all
  · rfl

lemma ofJson_branch {fields : Table Json} {r : Record} {items : List Json} {cs : List Tree}
    (hr : recordOf fields = .ok r) (hsome : fields.lookup "children" = some (.arr items))
    (hitems : ofItems items = .ok cs) : ofJson (.obj fields) = .ok (.node r cs) := by
  rw [ofJson, hr]
  simp only [bind, Except.bind]
  split
  · simp_all [pure, Except.pure]
  · simp_all
  · simp_all

lemma ofItems_toItems {F : List Tree} (h : ∀ r ∈ recordsOf F, r.id ≠ "" ∧ r.type ≠ "") :
    ofItems (toItems F) = .ok F := by
  induction F using forest_induction with
  | nil => rw [toItems, ofItems]
  | cons r cs rest ihc ihr =>
    rw [recordsOf_cons] at h
    obtain ⟨hid, htype⟩ := h r List.mem_cons_self
    have hcs := ihc fun s hs => h s (List.mem_cons_of_mem _ (List.mem_append_left _ hs))
    have hrest := ihr fun s hs => h s (List.mem_cons_of_mem _ (List.mem_append_right _ hs))
    have hr := recordOf_members cs hid htype
    have hchildren : (members r cs).lookup "children" = _ := get?_members r cs "children"
    have hnode : ofJson (toJson (.node r cs)) = .ok (.node r cs) := by
      rw [toJson_node]
      cases cs with
      | nil => exact ofJson_leaf hr (by simpa using hchildren)
      | cons t ts => exact ofJson_branch hr (by simpa using hchildren) hcs
    rw [toItems, ofItems, hnode, hrest]
    rfl

lemma ofJson_toJson {t : Tree} (h : ∀ r ∈ recordsOf [t], r.id ≠ "" ∧ r.type ≠ "") :
    ofJson t.toJson = .ok t := by
  have hitems := ofItems_toItems h
  rw [toItems, ofItems, bind_eq_ok_iff] at hitems
  obtain ⟨u, hu, hitems⟩ := hitems
  obtain ⟨rest, hrest, hitems⟩ := bind_eq_ok_iff.1 hitems
  obtain ⟨rfl, -⟩ := List.cons.inj (Except.ok.inj hitems)
  exact hu

end Tree

namespace Arena

variable {a : Arena} {q : Option String} {F : List Tree}

/-- The tree below a node is as deep as it has records at the most. -/
lemma mapM_treeFrom {depth : ℕ} (h : a.Stores q F) (hdepth : (Tree.recordsOf F).length ≤ depth) :
    (rootIds F).mapM (a.treeFrom depth) = .ok F := by
  induction F using forest_induction generalizing q depth with
  | nil => rfl
  | cons r cs rest ihc ihr =>
    rw [Stores, cells_cons] at h
    rw [recordsOf_cons, List.length_cons, List.length_append] at hdepth
    obtain ⟨hnode, hchildren⟩ := h _ List.mem_cons_self
    have hbelow : a.Stores (some r.id) cs := fun c hc =>
      h c (List.mem_cons_of_mem _ (List.mem_append_left _ hc))
    have hbeside : a.Stores q rest := fun c hc =>
      h c (List.mem_cons_of_mem _ (List.mem_append_right _ hc))
    obtain ⟨d, rfl⟩ : ∃ d, depth = d + 1 := ⟨depth - 1, by omega⟩
    have hcs : (rootIds cs).mapM (a.treeFrom d) = .ok cs := ihc hbelow (by omega)
    have hrest : (rootIds rest).mapM (a.treeFrom (d + 1)) = .ok rest := ihr hbeside (by omega)
    simp only at hnode hchildren
    rw [rootIds_cons, List.mapM_cons, hrest, treeFrom, hnode, hchildren, hcs]
    rfl

lemma Carries.mapM_toTree (h : a.Carries F) : a.roots.mapM a.toTree = .ok F := by
  rw [h.roots]
  exact mapM_treeFrom h.stores (h.size_eq ▸ Nat.le_succ _)

lemma Stands.mapM_toTree (h : a.Stands F) : a.roots.mapM a.toTree = .ok F := h.carries.mapM_toTree

lemma toTree_of_stores {t : Tree} (h : a.Stores q [t])
    (hsize : (Tree.recordsOf [t]).length ≤ a.size.succ) : a.toTree t.record.id = .ok t := by
  have htree : [t.record.id].mapM a.toTree = .ok [t] := mapM_treeFrom h hsize
  rw [List.mapM_cons, bind_eq_ok_iff] at htree
  obtain ⟨u, hu, htree⟩ := htree
  cases htree
  exact hu

/-! Adding node after node. -/

/-- Adds a node with its links. -/
def addCell (a : Arena) (c : Cell) : Except SchemaError Arena :=
  addNode c.parent a c.record c.children

lemma addTrees_eq (parent : Option String) (a : Arena) (F : List Tree) :
    addTrees parent a F = (cells parent F).foldlM addCell a := by
  induction F using forest_induction generalizing parent a with
  | nil => rfl
  | cons r cs rest ihc ihr =>
    simp only [addTrees, addTree, cells_cons, List.foldlM_cons, List.foldlM_append, ihc, ihr,
      bind_assoc]
    rfl

lemma addTree_eq (parent : Option String) (a : Arena) (t : Tree) :
    addTree parent a t = (cells parent [t]).foldlM addCell a := by
  rw [← addTrees_eq, addTrees]
  simp only [addTrees]
  exact (bind_pure _).symm

namespace HasCells

variable {L M : List Cell}

lemma exists_foldlM (h : a.HasCells L) (hn : ((L ++ M).map (·.record.id)).Nodup) :
    ∃ b, M.foldlM addCell a = .ok b := by
  induction M generalizing a L with
  | nil => exact ⟨a, rfl⟩
  | cons c rest ih =>
    have hnew : a.has c.record.id = false := by
      rw [Bool.eq_false_iff]
      intro hhas
      rw [List.map_append, List.nodup_append] at hn
      exact hn.2.2 _ (List.mem_map.2 (h.has_iff.1 hhas)) _ List.mem_cons_self rfl
    obtain ⟨b, hb⟩ : ∃ b, addCell a c = .ok b := by
      rw [addCell, Arena.addNode, if_neg (by simp [hnew])]
      exact ⟨_, rfl⟩
    obtain ⟨d, hd⟩ := ih (h.addNode hb).1 (by simpa using hn)
    rw [List.foldlM_cons, hb]
    exact ⟨d, hd⟩

lemma foldlM_repeated (h : a.HasCells L) (hn : ¬ ((L ++ M).map (·.record.id)).Nodup) :
    ∃ id, FirstRepeated ((L ++ M).map (·.record.id)) id ∧
      M.foldlM addCell a = .error (.duplicateId id) := by
  induction M generalizing a L with
  | nil =>
    rw [List.append_nil] at hn
    exact absurd h.nodup hn
  | cons c rest ih =>
    by_cases hhas : a.has c.record.id = true
    · refine ⟨c.record.id, ⟨L.map (·.record.id), rest.map (·.record.id), ?_, h.nodup, ?_⟩, ?_⟩
      · rw [List.map_append, List.map_cons]
      · exact List.mem_map.2 (h.has_iff.1 hhas)
      · rw [List.foldlM_cons, addCell, Arena.addNode, if_pos hhas]
        rfl
    · obtain ⟨b, hb⟩ : ∃ b, addCell a c = .ok b := by
        rw [addCell, Arena.addNode, if_neg hhas]
        exact ⟨_, rfl⟩
      obtain ⟨id, hid, herror⟩ := ih (h.addNode hb).1 (by simpa using hn)
      refine ⟨id, by simpa using hid, ?_⟩
      rw [List.foldlM_cons, hb]
      exact herror

end HasCells

/-! Adding tree after tree. -/

namespace Holds

variable {G : List Tree}

lemma exists_foldlM_addRoot (h : a.Holds F) (hG : "" ∉ idsOf G) (hn : (idsOf (F ++ G)).Nodup) :
    ∃ b, G.foldlM Arena.addRoot a = .ok b ∧ b.Holds (F ++ G) := by
  induction G generalizing a F with
  | nil => exact ⟨a, rfl, by rwa [List.append_nil]⟩
  | cons t rest ih =>
    rw [← List.singleton_append, ← List.append_assoc] at hn ⊢
    rw [← List.singleton_append, ids_append, List.mem_append, not_or] at hG
    obtain ⟨b, hb⟩ : ∃ b, a.addRoot t = .ok b := by
      rw [ids_append, ← map_id_cells none (F ++ [t])] at hn
      rw [cells_append] at hn
      obtain ⟨b, hb⟩ := h.hasCells.exists_foldlM hn.of_append_left
      rw [Arena.addRoot, addTree_eq, hb]
      exact ⟨_, rfl⟩
    obtain ⟨d, hd, hholds⟩ := ih (h.addRoot hG.1 hb) hG.2 hn
    refine ⟨d, ?_, hholds⟩
    rw [List.singleton_append, List.foldlM_cons, hb]
    exact hd

lemma foldlM_addRoot_repeated (h : a.Holds F) (hG : "" ∉ idsOf G)
    (hn : ¬ (idsOf (F ++ G)).Nodup) :
    ∃ id, FirstRepeated (idsOf (F ++ G)) id ∧
      G.foldlM Arena.addRoot a = .error (.duplicateId id) := by
  induction G generalizing a F with
  | nil =>
    rw [List.append_nil] at hn
    exact absurd h.stands.nodup hn
  | cons t rest ih =>
    rw [← List.singleton_append, ← List.append_assoc] at hn ⊢
    rw [← List.singleton_append, ids_append, List.mem_append, not_or] at hG
    by_cases ht : (idsOf (F ++ [t])).Nodup
    · obtain ⟨b, hb, hholds⟩ := h.exists_foldlM_addRoot hG.1 ht
      obtain ⟨id, hid, herror⟩ := ih hholds hG.2 hn
      rw [List.foldlM_append, hb]
      exact ⟨id, hid, herror⟩
    · rw [← map_id_cells none, cells_append] at ht
      obtain ⟨id, hid, herror⟩ := h.hasCells.foldlM_repeated ht
      rw [← cells_append, map_id_cells] at hid
      refine ⟨id, ?_, ?_⟩
      · rw [ids_append]
        exact hid.append _
      · rw [List.singleton_append, List.foldlM_cons, Arena.addRoot, addTree_eq, herror]
        rfl

end Holds

/-! Documents. -/

variable {sources : List Source} {trees : List Tree}

lemma ofSources_eq (h : List.Forall₂ (fun s t => s.toTree = .ok t) sources trees) :
    ofSources sources = trees.foldlM addRoot empty := by
  rw [ofSources]
  generalize empty = a
  induction h generalizing a with
  | nil => rfl
  | @cons s t sources trees hst _ ih =>
    rw [List.foldlM_cons, List.foldlM_cons, addSource, hst]
    exact bind_congr ih

/-- Documents with different ids become one arena, which lists their nodes in order and gives their
trees back, as does each tree's own document. Of ids that are met twice the first is refused. -/
theorem documents_survive_storage {documents : List Json}
    (h : documents.mapM Tree.ofJson = .ok trees) :
    ((idsOf trees).Nodup → ∃ a, ofDocuments documents = .ok a ∧
      Visits a a.roots (Tree.recordsOf trees) ∧ a.walk = .ok (Tree.recordsOf trees) ∧
      a.roots.mapM a.toTree = .ok trees ∧ (∀ t ∈ trees, Tree.ofJson t.toJson = .ok t) ∧
      ofSources (trees.map .tree) = .ok a ∧ ofDocuments (trees.map Tree.toJson) = .ok a) ∧
    (¬ (idsOf trees).Nodup → ∃ id, FirstRepeated (idsOf trees) id ∧
      ofDocuments documents = .error (.duplicateId id)) := by
  rw [mapM_eq_ok_iff] at h
  have hrecords : ∀ t ∈ trees, ∀ r ∈ Tree.recordsOf [t], r.id ≠ "" ∧ r.type ≠ "" := fun t ht => by
    obtain ⟨v, -, hv⟩ := exists_of_mem_right h ht
    exact Tree.forall_records_ofJson Tree.recordOf_ne_empty v t hv
  have hwritten : ∀ t ∈ trees, Tree.ofJson t.toJson = .ok t := fun t ht =>
    Tree.ofJson_toJson (hrecords t ht)
  have hids : "" ∉ idsOf trees := fun hempty => by
    obtain ⟨r, hr, hid⟩ := List.mem_map.1 hempty
    obtain ⟨t, ht, hr⟩ := mem_recordsOf.1 hr
    exact (hrecords t ht r hr).1 hid
  have hdocuments : ofDocuments documents = trees.foldlM addRoot empty :=
    ofSources_eq (List.forall₂_map_left_iff.2 h)
  have htrees : ofSources (trees.map .tree) = trees.foldlM addRoot empty :=
    ofSources_eq (List.forall₂_map_left_iff.2 (List.forall₂_same.2 fun _ _ => rfl))
  have hagain : ofDocuments (trees.map Tree.toJson) = trees.foldlM addRoot empty := by
    refine ofSources_eq (List.forall₂_map_left_iff.2 (List.forall₂_map_left_iff.2 ?_))
    exact List.forall₂_same.2 hwritten
  rw [hdocuments, htrees, hagain]
  constructor
  · intro hn
    obtain ⟨a, ha, hholds⟩ := Holds.empty.exists_foldlM_addRoot hids hn
    refine ⟨a, ha, ?_, hholds.stands.walk, hholds.stands.mapM_toTree, hwritten, ha, ha⟩
    rw [hholds.roots]
    exact visits_roots hholds.stands.stores
  · exact Holds.empty.foldlM_addRoot_repeated hids

def familyDocuments (id : Json) : List Json := [
  .obj [("id", .int 1), ("type", .str "p"), ("props", .null), ("children", .arr [
    .obj [("type", .str "b"), ("id", .str "a"), ("content", .bool false)]])],
  .obj [("id", id), ("type", .str "p"), ("style", .obj [("top", .int 0)])]]

def family (id : String) : List Tree := [
  .node ⟨"1", "p", [], [], .null⟩ [.node ⟨"a", "b", [], [], .bool false⟩ []],
  .node ⟨id, "p", [], [("top", .int 0)], .null⟩ []]

theorem documents_survive_storage_family :
    ((familyDocuments (.str "2")).mapM Tree.ofJson = .ok (family "2") ∧ (idsOf (family "2")).Nodup ∧
      ∃ a, ofDocuments (familyDocuments (.str "2")) = .ok a ∧
        Visits a a.roots (Tree.recordsOf (family "2")) ∧
        a.walk = .ok (Tree.recordsOf (family "2")) ∧ a.roots.mapM a.toTree = .ok (family "2") ∧
        (∀ t ∈ family "2", Tree.ofJson t.toJson = .ok t) ∧
        ofSources ((family "2").map .tree) = .ok a ∧
        ofDocuments ((family "2").map Tree.toJson) = .ok a) ∧
    (familyDocuments (.str "1")).mapM Tree.ofJson = .ok (family "1") ∧ ¬ (idsOf (family "1")).Nodup ∧
      ∃ id, FirstRepeated (idsOf (family "1")) id ∧
        ofDocuments (familyDocuments (.str "1")) = .error (.duplicateId id) := by
  have hread : ∀ id, id ≠ "" →
      (familyDocuments (.str id)).mapM Tree.ofJson = .ok (family id) := by
    intro id hid
    have hchild : Tree.ofItems [.obj [("type", .str "b"), ("id", .str "a"), ("content", .bool false)]] =
        .ok [.node ⟨"a", "b", [], [], .bool false⟩ []] := by
      rw [Tree.ofItems, Tree.ofJson_leaf rfl rfl, Tree.ofItems]
      rfl
    have hsecond : Tree.recordOf [("id", .str id), ("type", .str "p"),
        ("style", .obj [("top", .int 0)])] = .ok ⟨id, "p", [], [("top", .int 0)], .null⟩ := by
      simp [Tree.recordOf, Tree.objectMember, Json.member, Table.get?_cons, Json.display, Json.orElse,
        Json.isGiven, hid, bind, Except.bind, pure, Except.pure]
    rw [familyDocuments, List.mapM_cons, List.mapM_cons, List.mapM_nil,
      Tree.ofJson_branch rfl rfl hchild, Tree.ofJson_leaf hsecond rfl]
    rfl
  have hdistinct : (idsOf (family "2")).Nodup := by decide
  have hrepeated : ¬ (idsOf (family "1")).Nodup := by decide
  exact ⟨⟨hread "2" (by decide), hdistinct,
      (documents_survive_storage (hread "2" (by decide))).1 hdistinct⟩,
    hread "1" (by decide), hrepeated,
    (documents_survive_storage (hread "1" (by decide))).2 hrepeated⟩

end Arena

end ViewWriter.Schema

namespace ViewWriter.Schema

/-- A source that is an arena stands for a forest. -/
def Source.Standing (s : Source) : Prop := ∀ a, s = .arena a → ∃ F, a.Stands F

namespace Arena

variable {a b : Arena} {F : List Tree} {s : Source} {id root : String} {records : List Record}

/-- Below and at every node there is a tree, and its records are those that are visited. -/
lemma Stands.exists_tree_of_node {r : Record} (h : a.Stands F) (hr : a.node id = .ok r) :
    ∃ t, a.toTree id = .ok t ∧ a.walkAt id = .ok t.records ∧ (t.records.map (·.id)).Nodup := by
  obtain ⟨c, hc, rfl⟩ := h.exists_cell_of_node hr
  obtain ⟨cs, -, hpart⟩ := exists_subtree hc
  obtain ⟨hstores, hlength⟩ := h.stores_part hpart
  have hwalk := h.walkAt (t := .node c.record cs) hpart
  have hdistinct : (idsOf [.node c.record cs]).Nodup := h.nodup.sublist (ids_subtree hpart).sublist
  rw [idsOf, Tree.recordsOf, Tree.recordsOf, List.append_nil] at hdistinct
  rw [Tree.recordsOf, Tree.recordsOf, List.append_nil] at hwalk
  exact ⟨_, toTree_of_stores hstores hlength, hwalk, hdistinct⟩

lemma Stands.exists_toTree (h : a.Stands F) (hrecords : a.walkAt id = .ok records) :
    ∃ t, a.toTree id = .ok t ∧ t.records = records ∧ (records.map (·.id)).Nodup := by
  obtain ⟨r, hr, -⟩ := bind_eq_ok_iff.1 hrecords
  obtain ⟨t, ht, hwalk, hdistinct⟩ := h.exists_tree_of_node hr
  obtain rfl := Except.ok.inj (hwalk.symm.trans hrecords)
  exact ⟨t, ht, rfl, hdistinct⟩

lemma exists_node_of_toTree {t : Tree} (h : a.toTree id = .ok t) : ∃ r, a.node id = .ok r := by
  obtain ⟨r, hr, -⟩ := bind_eq_ok_iff.1 h
  exact ⟨r, hr⟩

lemma Stands.walkAt_of_toTree {t : Tree} (h : a.Stands F) (ht : a.toTree id = .ok t) :
    a.walkAt id = .ok t.records := by
  obtain ⟨r, hr⟩ := exists_node_of_toTree ht
  obtain ⟨u, hu, hwalk, -⟩ := h.exists_tree_of_node hr
  obtain rfl := Except.ok.inj (ht.symm.trans hu)
  exact hwalk

lemma stands_ofSources {sources : List Source} (h : ofSources sources = .ok a) :
    ∃ F, a.Stands F := by
  refine foldlM_keeps (P := fun a => ∃ F, a.Stands F) ?_ ⟨[], .empty⟩ h
  rintro s - b c ⟨F, hF⟩ hc
  obtain ⟨t, -, hc⟩ := bind_eq_ok_iff.1 hc
  exact ⟨_, hF.addRoot hc⟩

lemma stands_ofSource (hs : s.Standing) (h : ofSource s = .ok a) : ∃ F, a.Stands F := by
  cases s with
  | document v =>
    have hsingle : ofSources [.document v] = .ok a := h
    exact stands_ofSources hsingle
  | tree t =>
    have hsingle : ofSources [.tree t] = .ok a := h
    exact stands_ofSources hsingle
  | arena b =>
    obtain rfl := Except.ok.inj h
    exact hs b rfl

lemma stands_wrap {sections : List Source} {type : String}
    (hsections : ∀ s ∈ sections, s.Standing) (h : wrap sections root type = .ok a) :
    ∃ F, a.Stands F := by
  refine foldlM_keeps (P := fun a => ∃ F, a.Stands F) ?_ ⟨_, .ofRecord _⟩ h
  rintro s hs b c ⟨F, hF⟩ hc
  obtain ⟨part, hpart, hc⟩ := bind_eq_ok_iff.1 hc
  obtain ⟨G, hG⟩ := stands_ofSource (hsections s hs) hpart
  split_ifs at hc
  · cases hc
  · exact ⟨_, hF.withSubtree hG hc⟩

end Arena

end ViewWriter.Schema
