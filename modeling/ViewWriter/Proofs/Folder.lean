import Mathlib.Tactic.Lemma
import Mathlib.Tactic.SplitIfs
import ViewWriter.Folder
import ViewWriter.Proofs.Traversal

/-! Files in a folder. A file that has been written is found at its path and read as it was written. -/

namespace ViewWriter.Folder

open ViewWriter.Text

variable {f saved : Folder} {path text key : String} {place start : List String} {names : List String}
  {e : Entry}

lemma exists_of_write (h : f.write path text = .ok saved) : ∃ place, f.resolve path = .ok place ∧
    f.entry? place ≠ some .folder ∧ saved = ⟨f.entries.set (join "/" place) (.file text)⟩ := by
  rw [write, put, bind_eq_ok_iff] at h
  obtain ⟨place, hplace, h⟩ := h
  split at h
  · cases h
  · rename_i hentry
    cases h
    exact ⟨place, hplace, hentry, rfl⟩

lemma entry?_of_not_folder (h : f.entry? place ≠ some .folder) :
    f.entry? place = f.entries.get? (join "/" place) ∧ (place.isEmpty || place == rootPlace) = false := by
  unfold entry? at h ⊢
  split_ifs at h ⊢ with hroot
  · exact absurd rfl h
  · exact ⟨rfl, by simpa using hroot⟩

lemma entry?_set_folder (hkey : f.entries.get? key ≠ some .folder) (h : f.entry? start = some .folder) :
    entry? ⟨f.entries.set key e⟩ start = some .folder := by
  unfold entry? at h ⊢
  split_ifs at h ⊢ with hroot
  · rfl
  · have hne : join "/" start ≠ key := fun heq => hkey (heq ▸ h)
    rw [Table.get?_set, if_neg hne]
    exact h

/-- The way to a path goes through folders, so that it stays the same when a file is written. -/
lemma follow_set (hkey : f.entries.get? key ≠ some .folder) (h : f.follow path start names = .ok place) :
    follow ⟨f.entries.set key e⟩ path start names = .ok place := by
  induction names generalizing start with
  | nil => exact h
  | cons name rest ih =>
    rw [follow] at h ⊢
    split at h
    · cases h
    · rename_i hfolder
      simp only [entry?_set_folder hkey hfolder]
      split_ifs at h ⊢ with hup
      · split at h
        · exact ih h
        · cases h
      · exact ih h
    · cases h

lemma plainBreaks_eq_self {cs : List Char} (h : '\r' ∉ cs) : plainBreaks cs = cs := by
  induction cs with
  | nil => rfl
  | cons c rest ih =>
    obtain ⟨hc, hrest⟩ := not_or.1 (mt List.mem_cons.2 h)
    have hplain : (c == '\r') = false := beq_eq_false_iff_ne.2 (Ne.symm hc)
    rw [plainBreaks, ih hrest, hplain]
    · rfl
    · rintro _ rfl
      exact absurd rfl hc

lemma find_of_write (h : f.write path text = .ok saved) : saved.find path = .ok (.file text) := by
  obtain ⟨place, hplace, hentry, rfl⟩ := exists_of_write h
  obtain ⟨hget, hroot⟩ := entry?_of_not_folder hentry
  have hfollow : resolve ⟨f.entries.set (join "/" place) (.file text)⟩ path = .ok place :=
    follow_set (hget ▸ hentry) hplace
  have hfile : entry? ⟨f.entries.set (join "/" place) (.file text)⟩ place = some (.file text) := by
    unfold entry?
    rw [hroot, if_neg Bool.false_ne_true, Table.get?_set, if_pos rfl]
  refine bind_eq_ok_iff.2 ⟨place, hfollow, ?_⟩
  rw [hfile]
  rfl

lemma has_of_write (h : f.write path text = .ok saved) : saved.has path = true := by
  rw [has, find_of_write h]
  rfl

lemma read_of_write (h : f.write path text = .ok saved) (hplain : '\r' ∉ text.toList) :
    saved.read path = .ok text := by
  rw [read, find_of_write h]
  change Except.ok (String.ofList (plainBreaks text.toList)) = Except.ok text
  rw [plainBreaks_eq_self hplain, String.ofList_toList]

end ViewWriter.Folder
