import Mathlib.Data.List.Nodup
import Mathlib.Tactic.Lemma
import ViewWriter.Proofs.Traversal
import ViewWriter.Table

/-! Tables without repeated keys. Writing new keys appends them, and writing known keys changes what
stands there. -/

namespace ViewWriter.Table

variable {α β : Type} {t u : Table α} {key : String} {value : α}

lemma keys_append (t u : Table α) : keys (t ++ u) = t.keys ++ u.keys := List.map_append

lemma mem_keys_of_mem (h : (key, value) ∈ t) : key ∈ t.keys := List.mem_map.2 ⟨_, h, rfl⟩

lemma nodup_keys_cons {e : String × α} (h : (keys (e :: t)).Nodup) : e.1 ∉ t.keys ∧ t.keys.Nodup :=
  List.nodup_cons.1 h

lemma get?_of_mem (h : t.keys.Nodup) (hm : (key, value) ∈ t) : t.get? key = some value := by
  induction t with
  | nil => cases hm
  | cons e rest ih =>
    obtain ⟨k, v⟩ := e
    obtain ⟨hk, hrest⟩ := nodup_keys_cons h
    rw [get?_cons]
    rcases List.mem_cons.1 hm with heq | hm
    · cases heq
      exact if_pos rfl
    · have hne : key ≠ k := fun he => hk (he ▸ mem_keys_of_mem hm)
      rw [if_neg hne]
      exact ih hrest hm

lemma mem_of_get? (h : t.get? key = some value) : (key, value) ∈ t := by
  induction t with
  | nil => cases h
  | cons e rest ih =>
    obtain ⟨k, v⟩ := e
    rw [get?_cons] at h
    split_ifs at h with hk
    · rw [hk, Option.some.inj h]
      exact List.mem_cons_self
    · exact List.mem_cons_of_mem _ (ih h)

lemma get?_of_notMem (h : key ∉ t.keys) : t.get? key = none := by
  cases hget : t.get? key with
  | none => rfl
  | some v => exact absurd (mem_keys_of_mem (mem_of_get? hget)) h

lemma exists_get?_of_mem (h : key ∈ t.keys) : ∃ v, t.get? key = some v := by
  induction t with
  | nil => cases h
  | cons e rest ih =>
    obtain ⟨k, v⟩ := e
    rw [get?_cons]
    by_cases hk : key = k
    · exact ⟨v, if_pos hk⟩
    · rw [if_neg hk]
      exact ih ((List.mem_cons.1 h).resolve_left hk)

lemma has_iff : t.has key = true ↔ key ∈ t.keys := by
  rw [has]
  constructor
  · intro h
    by_contra hm
    rw [get?_of_notMem hm] at h
    cases h
  · intro h
    obtain ⟨v, hv⟩ := exists_get?_of_mem h
    rw [hv]
    rfl

lemma keys_perm (h : t.Perm u) : t.keys.Perm u.keys := h.map _

lemma perm_of_get? (ht : t.keys.Nodup) (hkeys : t.keys.Perm u.keys)
    (h : ∀ e ∈ u, t.get? e.1 = some e.2) : t.Perm u := by
  have hu : u.Nodup := (hkeys.nodup_iff.1 ht).of_map
  have hsub : u ⊆ t := fun e he => mem_of_get? (h e he)
  have hlength : t.length = u.length := by
    simpa only [keys, List.length_map] using hkeys.length_eq
  exact ((List.subperm_of_subset hu hsub).perm_of_length_le (Nat.le_of_eq hlength)).symm

lemma set_of_notMem (h : key ∉ t.keys) : t.set key value = t ++ [(key, value)] := by
  induction t with
  | nil => rfl
  | cons e rest ih =>
    obtain ⟨k, v⟩ := e
    obtain ⟨hk, hrest⟩ := not_or.1 (mt List.mem_cons.2 h)
    have hkey : (k == key) = false := beq_eq_false_iff_ne.2 (Ne.symm hk)
    rw [set, hkey, ih hrest]
    rfl

lemma set_of_mem (hn : t.keys.Nodup) (h : key ∈ t.keys) :
    t.set key value = t.map fun e => (e.1, if e.1 = key then value else e.2) := by
  induction t with
  | nil => cases h
  | cons e rest ih =>
    obtain ⟨k, v⟩ := e
    obtain ⟨hk, hrest⟩ := nodup_keys_cons hn
    rw [set, List.map_cons]
    by_cases hkey : k = key
    · have hsame : (rest.map fun e => (e.1, if e.1 = key then value else e.2)) = rest := by
        refine map_eq_self fun e he => congrArg (e.1, ·) (if_neg fun heq => hk ?_)
        rw [hkey, ← heq]
        exact mem_keys_of_mem he
      rw [hsame, if_pos (beq_iff_eq.2 hkey), if_pos hkey]
    · rw [ih hrest ((List.mem_cons.1 h).resolve_left (Ne.symm hkey)),
        if_neg (by simpa using hkey), if_neg hkey]

lemma merge_cons (e : String × α) : t.merge (e :: u) = (t.set e.1 e.2).merge u := rfl

lemma get?_merge_of_notMem (h : key ∉ u.keys) : (t.merge u).get? key = t.get? key := by
  induction u generalizing t with
  | nil => rfl
  | cons e rest ih =>
    obtain ⟨he, hrest⟩ := not_or.1 (mt List.mem_cons.2 h)
    rw [merge_cons, ih hrest, get?_set, if_neg he]

lemma get?_merge_of_mem (hu : u.keys.Nodup) (h : (key, value) ∈ u) :
    (t.merge u).get? key = some value := by
  induction u generalizing t with
  | nil => cases h
  | cons e rest ih =>
    obtain ⟨he, hrest⟩ := nodup_keys_cons hu
    rw [merge_cons]
    rcases List.mem_cons.1 h with rfl | h
    · rw [get?_merge_of_notMem he, get?_set, if_pos rfl]
    · exact ih hrest h

lemma get?_merge_right (hu : u.keys.Nodup) (h : key ∈ u.keys) :
    (t.merge u).get? key = u.get? key := by
  obtain ⟨v, hv⟩ := exists_get?_of_mem h
  rw [get?_merge_of_mem hu (mem_of_get? hv), hv]

lemma get?_merge (hu : u.keys.Nodup) (t : Table α) (key : String) :
    (t.merge u).get? key = (u.get? key).or (t.get? key) := by
  by_cases h : key ∈ u.keys
  · obtain ⟨v, hv⟩ := exists_get?_of_mem h
    rw [get?_merge_right hu h, hv]
    rfl
  · rw [get?_merge_of_notMem h, get?_of_notMem h]
    rfl

lemma get?_filter (p : String → Bool) (t : Table α) (key : String) :
    get? (t.filter fun e => p e.1) key = if p key then t.get? key else none := by
  induction t with
  | nil => simp
  | cons e rest ih =>
    obtain ⟨k, v⟩ := e
    rw [List.filter_cons, get?_cons]
    by_cases hk : key = k
    · subst hk
      cases hp : p key <;> simp [hp, get?_cons, ih]
    · cases hp : p k <;> simp [hk, get?_cons, ih]

lemma nodup_keys_set (h : t.keys.Nodup) (key : String) (value : α) : (t.set key value).keys.Nodup := by
  rw [keys_set]
  split_ifs with hm
  · exact h
  · exact List.nodup_append.2 ⟨h, List.nodup_singleton key, fun k hk k' hk' heq =>
      hm (List.mem_singleton.1 hk' ▸ heq ▸ hk)⟩

lemma nodup_keys_merge (h : t.keys.Nodup) (u : Table α) : (t.merge u).keys.Nodup := by
  induction u generalizing t with
  | nil => exact h
  | cons e rest ih => exact ih (nodup_keys_set h e.1 e.2)

lemma keys_merge (hu : u.keys.Nodup) (t : Table α) :
    (t.merge u).keys = t.keys ++ u.keys.filter (· ∉ t.keys) := by
  induction u generalizing t with
  | nil => simp [merge, keys]
  | cons e rest ih =>
    obtain ⟨he, hrest⟩ := nodup_keys_cons hu
    have hcons : keys (e :: rest) = e.1 :: keys rest := rfl
    rw [merge_cons, ih hrest, keys_set, hcons, List.filter_cons]
    by_cases hm : e.1 ∈ t.keys
    · simp [hm]
    · have hsame : (keys rest).filter (· ∉ t.keys ++ [e.1]) = (keys rest).filter (· ∉ t.keys) := by
        refine List.filter_congr fun k hk => ?_
        have hne : k ≠ e.1 := fun heq => he (heq ▸ hk)
        simp [hne]
      rw [if_neg hm, hsame, if_pos (by simpa using hm), List.append_assoc]
      rfl

lemma ext_get? (ht : t.keys.Nodup) (hkeys : t.keys = u.keys) (h : ∀ k, t.get? k = u.get? k) : t = u := by
  induction t generalizing u with
  | nil => exact (List.map_eq_nil_iff.1 hkeys.symm).symm
  | cons e rest ih =>
    cases u with
    | nil => cases hkeys
    | cons d more =>
      obtain ⟨k, v⟩ := e
      obtain ⟨k', w⟩ := d
      obtain ⟨rfl, hmore⟩ : k = k' ∧ keys rest = keys more := List.cons.inj hkeys
      obtain ⟨hk, hrest⟩ := nodup_keys_cons ht
      have hvalue := h k
      simp only [get?_cons, if_true, Option.some.injEq] at hvalue
      rw [hvalue, ih hrest hmore fun key => ?_]
      by_cases hkey : key = k
      · subst hkey
        rw [get?_of_notMem hk, get?_of_notMem (hmore ▸ hk)]
      · simpa [get?_cons, hkey] using h key

/-- What has been written over a table is not changed by the table below it. -/
lemma merge_merge (ht : t.keys.Nodup) (hu : u.keys.Nodup) : t.merge (t.merge u) = t.merge u := by
  have hmerged := nodup_keys_merge ht u
  refine ext_get? (nodup_keys_merge ht _) ?_ fun k => ?_
  · rw [keys_merge hmerged, keys_merge hu, List.filter_append, List.filter_filter]
    simp
  · rw [get?_merge hmerged, get?_merge hu, Option.or_assoc, Option.or_self]

lemma merge_of_disjoint (hu : u.keys.Nodup) (h : ∀ k ∈ u.keys, k ∉ t.keys) :
    t.merge u = t ++ u := by
  induction u generalizing t with
  | nil => rw [List.append_nil]; rfl
  | cons e rest ih =>
    obtain ⟨he, hrest⟩ := nodup_keys_cons hu
    have hnew := h e.1 List.mem_cons_self
    have hfresh : ∀ k ∈ keys rest, k ∉ keys (t ++ [e]) := by
      intro k hk hm
      rw [keys_append] at hm
      rcases List.mem_append.1 hm with hm | hm
      · exact h k (List.mem_cons_of_mem _ hk) hm
      · rw [List.mem_singleton.1 hm] at hk
        exact he hk
    rw [merge_cons, set_of_notMem hnew, ih hrest hfresh, List.append_assoc]
    rfl

lemma ofEntries_of_nodup (h : t.keys.Nodup) : ofEntries t = t :=
  merge_of_disjoint h fun _ _ hm => by cases hm

lemma mem_of_mem_set {e : String × α} (h : e ∈ t.set key value) : e = (key, value) ∨ e ∈ t := by
  induction t with
  | nil => exact .inl (List.mem_singleton.1 h)
  | cons d rest ih =>
    obtain ⟨k, v⟩ := d
    rw [set] at h
    split_ifs at h with hk
    · rcases List.mem_cons.1 h with rfl | h
      · exact .inl (by rw [beq_iff_eq.1 hk])
      · exact .inr (List.mem_cons_of_mem _ h)
    · rcases List.mem_cons.1 h with rfl | h
      · exact .inr List.mem_cons_self
      · exact (ih h).imp_right (List.mem_cons_of_mem _)

lemma mem_of_mem_merge {e : String × α} (h : e ∈ t.merge u) : e ∈ t ∨ e ∈ u := by
  induction u generalizing t with
  | nil => exact .inl h
  | cons d rest ih =>
    rw [merge_cons] at h
    rcases ih h with h | h
    · rcases mem_of_mem_set h with rfl | h
      · exact .inr List.mem_cons_self
      · exact .inl h
    · exact .inr (List.mem_cons_of_mem d h)

lemma merge_const (hn : t.keys.Nodup) {known : List String} (h : ∀ k ∈ known, k ∈ t.keys) :
    t.merge (known.map fun k => (k, value)) =
      t.map fun e => (e.1, if e.1 ∈ known then value else e.2) := by
  induction known generalizing t with
  | nil => simp [merge]
  | cons k known ih =>
    have hkeys : (t.set k value).keys = t.keys := by rw [keys_set, if_pos (h k List.mem_cons_self)]
    rw [List.map_cons, merge_cons, ih (hkeys ▸ hn) (fun k' hk' => hkeys ▸ h k' (List.mem_cons_of_mem _ hk')),
      set_of_mem hn (h k List.mem_cons_self), List.map_map]
    refine List.map_congr_left fun e _ => ?_
    by_cases hk : e.1 = k <;> by_cases hm : e.1 ∈ known <;> simp [hk, hm]

end ViewWriter.Table
