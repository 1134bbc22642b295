import ViewWriter.Name.Fresh
import ViewWriter.Proofs.Number.Digits

/-! The search for a name that is not taken. It tries one name after the other and ends at one that is
free, as long as no two numbered names are the same. The names that searches find one after the other
differ. -/

namespace ViewWriter.Name

variable {taken names : List String} {natural candidate found : String} {numbered : ℕ → String}
  {counter : ℕ}

/-- A search that has come to a candidate. If that is taken, then it goes on to the name with the
number `counter`. -/
inductive Search (taken : List String) (numbered : ℕ → String) : ℕ → String → String → Prop
  | free {counter : ℕ} {candidate : String} :
      candidate ∉ taken → Search taken numbered counter candidate candidate
  | next {counter : ℕ} {candidate found : String} :
      candidate ∈ taken → Search taken numbered (counter + 1) (numbered counter) found →
      Search taken numbered counter candidate found

lemma Search.notMem (h : Search taken numbered counter candidate found) : found ∉ taken := by
  induction h with
  | free hfree => exact hfree
  | next _ _ ih => exact ih

lemma Search.found_cases (h : Search taken numbered counter candidate found) :
    found = candidate ∨ ∃ n, found = numbered n := by
  induction h with
  | free _ => exact .inl rfl
  | next _ _ ih => exact .inr (ih.elim (fun heq => ⟨_, heq⟩) id)

lemma Search.unique {last : String} (h : Search taken numbered counter candidate found)
    (hlast : Search taken numbered counter candidate last) : found = last := by
  induction h with
  | free hfree =>
    cases hlast with
    | free => rfl
    | next htaken => exact absurd htaken hfree
  | next htaken _ ih =>
    cases hlast with
    | free hfree => exact absurd htaken hfree
    | next _ hlast => exact ih hlast

/-- Searches one after the other. What one of them finds is taken for those after it. -/
inductive Searches : List String → List String → Prop
  | nil {taken : List String} : Searches taken []
  | cons {taken others : List String} {natural found : String} {numbered : ℕ → String} :
      Search taken numbered 2 natural found → Searches (found :: taken) others →
      Searches taken (found :: others)

lemma Searches.notMem (h : Searches taken names) : ∀ name ∈ names, name ∉ taken := by
  induction h with
  | nil => exact fun _ hname => by cases hname
  | cons hsearch _ ih =>
    rw [List.forall_mem_cons]
    exact ⟨hsearch.notMem, fun name hname hmem => ih name hname (List.mem_cons_of_mem _ hmem)⟩

lemma Searches.nodup (h : Searches taken names) : names.Nodup := by
  induction h with
  | nil => exact .nil
  | cons _ hrest ih =>
    rw [List.nodup_cons]
    exact ⟨fun hmem => hrest.notMem _ hmem List.mem_cons_self, ih⟩

lemma search_of_find? {count : ℕ} (hcandidate : candidate ∈ taken)
    (h : ((List.range' counter count).map numbered).find? (!taken.contains ·) = some found) :
    Search taken numbered counter candidate found := by
  induction count generalizing counter candidate with
  | zero => cases h
  | succ count ih =>
    rw [List.range'_succ, List.map_cons] at h
    by_cases hnext : numbered counter ∈ taken
    · rw [List.find?_cons_of_neg (by simpa using hnext)] at h
      exact .next hcandidate (ih hnext h)
    · rw [List.find?_cons_of_pos (by simpa using hnext)] at h
      cases h
      exact .next hcandidate (.free hnext)

lemma search_fresh (hf : ∀ m n, numbered m = numbered n → m = n) (taken : List String)
    (natural : String) : Search taken numbered 2 natural (fresh taken natural numbered) := by
  have hfree : fresh taken natural numbered ∉ taken := fresh_not_mem hf
  rw [fresh] at hfree ⊢
  by_cases htaken : natural ∈ taken
  · have hrange : ((List.range (taken.length + 1)).map fun n => numbered (n + 2)) =
        (List.range' 2 (taken.length + 1)).map numbered := by
      rw [List.range'_eq_map_range, List.map_map]
      exact List.map_congr_left fun n _ => congrArg numbered (Nat.add_comm n 2)
    rw [if_pos (List.contains_iff_mem.2 htaken), hrange] at hfree ⊢
    cases hfind : ((List.range' 2 (taken.length + 1)).map numbered).find? (!taken.contains ·) with
    | none =>
      rw [hfind] at hfree
      exact absurd htaken hfree
    | some name => exact search_of_find? htaken hfind
  · rw [if_neg (by simpa using htaken)]
    exact .free htaken

lemma toString_inj {m n : ℕ} (h : toString m = toString n) : m = n := by
  have hdigits : Nat.toDigits 10 m = Nat.toDigits 10 n := String.ofList_injective h
  rw [← Number.valueOf_toDigits m, hdigits, Number.valueOf_toDigits]

lemma numbered_inj (start : String) (m n : ℕ) (h : start ++ toString m = start ++ toString n) :
    m = n := by
  rw [← String.toList_inj, String.toList_append, String.toList_append] at h
  exact toString_inj (String.toList_inj.1 (List.append_cancel_left h))

end ViewWriter.Name
