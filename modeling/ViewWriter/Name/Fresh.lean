/-!
The search for a name that is not taken. Main statement: the name found is not among those taken.
-/

namespace ViewWriter.Name

/-- `natural`, or the first of `numbered 2`, `numbered 3`, … that is not taken. -/
def fresh (taken : List String) (natural : String) (numbered : Nat → String) : String :=
  if taken.contains natural then
    (((List.range (taken.length + 1)).map fun n => numbered (n + 2)).find?
      fun name => !taken.contains name).getD natural
  else natural

theorem length_le_of_nodup_subset {xs ys : List String} (hx : xs.Nodup) (hs : xs ⊆ ys) :
    xs.length ≤ ys.length := by
  induction xs generalizing ys with
  | nil => simp
  | cons x xs ih =>
    have hmem : x ∈ ys := hs List.mem_cons_self
    rw [List.nodup_cons] at hx
    have hsub : xs ⊆ ys.erase x := fun z hz => by
      have hne : z ≠ x := fun h => hx.1 (h ▸ hz)
      exact (List.mem_erase_of_ne hne).2 (hs (List.mem_cons_of_mem _ hz))
    have := ih hx.2 hsub
    rw [List.length_erase_of_mem hmem] at this
    have := List.length_pos_of_mem hmem
    simp only [List.length_cons]
    omega

theorem exists_not_mem_of_injective {f : Nat → String} (hf : ∀ m n, f m = f n → m = n)
    (taken : List String) : ∃ n ∈ List.range (taken.length + 1), f n ∉ taken := by
  apply Classical.byContradiction
  intro hnone
  have hsub : ((List.range (taken.length + 1)).map f) ⊆ taken := by
    intro x hx
    obtain ⟨n, hn, rfl⟩ := List.mem_map.1 hx
    apply Classical.byContradiction
    intro hx
    exact hnone ⟨n, hn, hx⟩
  have hnodup : ((List.range (taken.length + 1)).map f).Nodup := by
    rw [List.Nodup, List.pairwise_map]
    exact List.nodup_range.imp fun hne heq => hne (hf _ _ heq)
  have := length_le_of_nodup_subset hnodup hsub
  simp only [List.length_map, List.length_range] at this
  omega

theorem fresh_not_mem {taken : List String} {natural : String} {numbered : Nat → String}
    (hf : ∀ m n, numbered m = numbered n → m = n) : fresh taken natural numbered ∉ taken := by
  unfold fresh
  split
  · obtain ⟨n, hn, hfree⟩ := exists_not_mem_of_injective
      (f := fun n => numbered (n + 2)) (fun m n h => by have := hf _ _ h; omega) taken
    cases hfind : ((List.range (taken.length + 1)).map fun n => numbered (n + 2)).find?
        fun name => !taken.contains name with
    | none =>
      rw [List.find?_eq_none] at hfind
      have := hfind _ (List.mem_map.2 ⟨n, hn, rfl⟩)
      simp [hfree] at this
    | some name =>
      have := List.find?_some hfind
      simpa using this
  · rename_i h
    simpa using h

end ViewWriter.Name
