import Mathlib.Tactic.SplitIfs
import ViewWriter.Bundle
import ViewWriter.Proofs.Traversal

/-! Bundles to which code is added. Their entries only grow, and no path gets another content. -/

namespace ViewWriter.Bundle

open ViewWriter.Text

/-- The path of a file in a folder. A blank file has none. -/
def pathOf? (folder : String) (file : String × Artifact) : Option String :=
  if file.2.content.toList.all isBlank then none
  else some (if folder == "" then file.2.name else folder ++ "/" ++ file.2.name)

def entryOf? (framework : Framework) (folder : String) (file : String × Artifact) :
    Option BundleEntry :=
  (pathOf? folder file).map fun path => ⟨path, file.2.content, framework, file.1⟩

/-- The entries of those files whose paths are not in the bundle, each path once. -/
def newEntries (b : Bundle) (framework : Framework) (folder : String)
    (files : List (String × Artifact)) : List BundleEntry :=
  (firstsAfter (pathOf? folder) (b.entries.map (·.path)) files).filterMap (entryOf? framework folder)

def grown (b : Bundle) (framework : Framework) (folder : String)
    (files : List (String × Artifact)) : Bundle :=
  { b with entries := b.entries ++ b.newEntries framework folder files }

variable {b b' : Bundle} {framework : Framework} {folder path : String} {file : String × Artifact}
  {rest files : List (String × Artifact)} {old : BundleEntry} {a a' : Addition} {e : BundleError}

lemma find?_eq_none_iff : b.find? path = none ↔ path ∉ b.entries.map (·.path) := by
  rw [find?, List.find?_eq_none, List.mem_map]
  simp only [beq_iff_eq, not_exists, not_and]

lemma mem_paths_of_find? (h : b.find? path = some old) : path ∈ b.entries.map (·.path) := by
  by_contra hnone
  rw [find?_eq_none_iff.2 hnone] at h
  cases h

lemma newEntries_blank (h : pathOf? folder file = none) :
    b.newEntries framework folder (file :: rest) = b.newEntries framework folder rest := by
  rw [newEntries, firstsAfter_unnamed h, newEntries]

lemma newEntries_known (h : pathOf? folder file = some path) (hold : b.find? path = some old) :
    b.newEntries framework folder (file :: rest) = b.newEntries framework folder rest := by
  rw [newEntries, firstsAfter_seen h (mem_paths_of_find? hold), newEntries]

lemma newEntries_new (h : pathOf? folder file = some path) (hnone : b.find? path = none) :
    let entry : BundleEntry := ⟨path, file.2.content, framework, file.1⟩
    b.newEntries framework folder (file :: rest) = entry ::
      { b with entries := b.entries ++ [entry] }.newEntries framework folder rest := by
  intro entry
  have hentry : entryOf? framework folder file = some entry := by
    rw [entryOf?, h]
    rfl
  have hpaths : ∀ name, name ∈ path :: b.entries.map (·.path) ↔
      name ∈ (b.entries ++ [entry]).map (·.path) := by
    intro name
    rw [List.map_append, List.mem_append, List.mem_cons, List.map_singleton, List.mem_singleton]
    exact or_comm
  rw [newEntries, firstsAfter_new h (find?_eq_none_iff.1 hnone), List.filterMap_cons_some hentry,
    newEntries, firstsAfter_congr hpaths]

lemma grown_nil (b : Bundle) (framework : Framework) (folder : String) :
    b.grown framework folder [] = b := by
  rw [grown, newEntries, firstsAfter_nil, List.filterMap_nil, List.append_nil]

/-! One file. -/

/-- A bundle takes a file in, or passes it over. -/
inductive Takes (b : Bundle) (framework : Framework) (folder : String) (file : String × Artifact) :
    Bundle → Prop
  | blank : pathOf? folder file = none → Takes b framework folder file b
  | known {path : String} {old : BundleEntry} : pathOf? folder file = some path →
      b.find? path = some old → old.content = file.2.content → Takes b framework folder file b
  | new {path : String} : pathOf? folder file = some path → b.find? path = none →
      Takes b framework folder file
        { b with entries := b.entries ++ [⟨path, file.2.content, framework, file.1⟩] }

lemma addFile_blank (h : pathOf? folder file = none) : addFile framework folder a file = .ok a := by
  rw [pathOf?] at h
  split_ifs at h with hblank
  exact if_pos hblank

lemma addFile_named (h : pathOf? folder file = some path) :
    addFile framework folder a file = match a.bundle.find? path with
      | some old => if old.content == file.2.content then .ok a else .error (.taken path)
      | none =>
        let entries := a.bundle.entries ++ [⟨path, file.2.content, framework, file.1⟩]
        .ok ⟨{ a.bundle with entries }, a.added ++ [path]⟩ := by
  rw [pathOf?] at h
  split at h
  · cases h
  · rename_i hblank
    cases h
    exact if_neg hblank

lemma takes_of_addFile (h : addFile framework folder a file = .ok a') :
    a.bundle.Takes framework folder file a'.bundle := by
  cases hpath : pathOf? folder file with
  | none =>
    rw [addFile_blank hpath] at h
    cases h
    exact .blank hpath
  | some path =>
    rw [addFile_named hpath] at h
    split at h
    · rename_i old hold
      split_ifs at h with hsame
      cases h
      exact .known hpath hold (beq_iff_eq.1 hsame)
    · rename_i hnone
      cases h
      exact .new hpath hnone

lemma taken_of_addFile (h : addFile framework folder a file = .error e) : ∃ path old,
    e = .taken path ∧ pathOf? folder file = some path ∧ a.bundle.find? path = some old ∧
      old.content ≠ file.2.content := by
  cases hpath : pathOf? folder file with
  | none =>
    rw [addFile_blank hpath] at h
    cases h
  | some path =>
    rw [addFile_named hpath] at h
    split at h
    · rename_i old hold
      split_ifs at h with hsame
      cases h
      exact ⟨path, old, rfl, rfl, hold, fun heq => hsame (beq_iff_eq.2 heq)⟩
    · cases h

lemma Takes.grown_eq (h : b.Takes framework folder file b') :
    b'.grown framework folder rest = b.grown framework folder (file :: rest) := by
  cases h with
  | blank h => rw [grown, grown, newEntries_blank h]
  | known h hold => rw [grown, grown, newEntries_known h hold]
  | new h hnone => rw [grown, grown, newEntries_new h hnone, List.append_assoc]; rfl

lemma grown_of_foldlM (h : files.foldlM (addFile framework folder) a = .ok a') :
    a'.bundle = a.bundle.grown framework folder files := by
  induction files generalizing a with
  | nil =>
    cases h
    exact (grown_nil _ framework folder).symm
  | cons file rest ih =>
    rw [List.foldlM_cons, bind_eq_ok_iff] at h
    obtain ⟨c, hc, h⟩ := h
    exact (ih h).trans (takes_of_addFile hc).grown_eq

/-! One call. -/

/-- The folder of a call, without the separators around it. -/
def placeOf (c : Code) (folder : Option String) : Except Fault String :=
  (folder.elim (folderOf c) Except.ok).map fun folder =>
    String.ofList (trim (· == '/') folder.toList)

/-- How a call ends, and the bundle after it. -/
inductive Adds (b : Bundle) (c : Code) (folder : Option String) : Option Failure → Bundle → Prop
  | unplaced {f : Fault} : Adds b c folder (some (.fault f)) b
  | rejected {place path : String} {before after : List (String × Artifact)}
      {file : String × Artifact} {old : BundleEntry} : placeOf c folder = .ok place →
      c.files = before ++ file :: after → pathOf? place file = some path →
      (b.grown c.framework place before).find? path = some old → old.content ≠ file.2.content →
      Adds b c folder (some (.bundle (.taken path))) (b.grown c.framework place before)
  | done {place : String} {frameworks : List Framework} : placeOf c folder = .ok place →
      Adds b c folder none { b.grown c.framework place c.files with frameworks }

variable {c : Code} {given : Option String} {failure : Option Failure}

lemma adds_add (b : Bundle) (c : Code) (given : Option String) :
    b.Adds c given (b.add c given).failure (b.add c given).state.bundle := by
  have hplace (folder : String) (h : given.elim (folderOf c) Except.ok = .ok folder) :
      placeOf c given = .ok (String.ofList (trim (· == '/') folder.toList)) := by
    rw [placeOf, h]
    rfl
  rw [add]
  split
  · exact .unplaced
  · rename_i folder hfolder
    specialize hplace folder hfolder
    dsimp only
    split
    · rename_i e hfailure
      obtain ⟨before, file, after, hfiles, hbefore, hstop⟩ := Attempt.exists_stop hfailure
      obtain ⟨path, old, rfl, hpath, hold, hne⟩ := taken_of_addFile hstop
      rw [grown_of_foldlM hbefore] at hold ⊢
      exact .rejected hplace hfiles hpath hold hne
    · rename_i hdone
      rw [grown_of_foldlM (Attempt.foldlM_of_each hdone)]
      exact .done hplace

lemma Adds.entries_prefix (h : b.Adds c given failure b') : b.entries <+: b'.entries := by
  cases h with
  | unplaced => exact List.prefix_refl _
  | rejected => exact List.prefix_append _ _
  | done => exact List.prefix_append _ _

lemma paths_newEntries (b : Bundle) (framework : Framework) (folder : String)
    (files : List (String × Artifact)) : (b.newEntries framework folder files).map (·.path) =
      (firstsAfter (pathOf? folder) (b.entries.map (·.path)) files).filterMap (pathOf? folder) := by
  rw [newEntries, List.map_filterMap]
  refine List.filterMap_congr fun file _ => ?_
  rw [entryOf?, Option.map_map]
  exact Option.map_id'

lemma nodup_paths_grown (h : (b.entries.map (·.path)).Nodup) (framework : Framework)
    (folder : String) (files : List (String × Artifact)) :
    ((b.grown framework folder files).entries.map (·.path)).Nodup := by
  rw [grown, List.map_append, paths_newEntries]
  apply h.append (nodup_firstsAfter _ files)
  intro path hold hnew
  exact (exists_firstsAfter.1 (List.mem_filterMap.1 hnew)).1 hold

lemma Adds.nodup_paths (h : b.Adds c given failure b') (hb : (b.entries.map (·.path)).Nodup) :
    (b'.entries.map (·.path)).Nodup := by
  cases h with
  | unplaced => exact hb
  | rejected => exact nodup_paths_grown hb _ _ _
  | done => exact nodup_paths_grown hb _ _ _

lemma find?_of_prefix (h : b.entries <+: b'.entries) (hold : b.find? path = some old) :
    b'.find? path = some old := by
  obtain ⟨new, hnew⟩ := h
  rw [find?] at hold
  rw [find?, ← hnew, List.find?_append, hold]
  rfl

/-! Calls one after the other, whether or not they succeed. -/

def addAll (b : Bundle) (calls : List (Code × Option String)) : Bundle :=
  calls.foldl (fun b call => (b.add call.1 call.2).state.bundle) b

lemma addAll_keeps {P : Bundle → Prop}
    (hstep : ∀ b b' c given failure, Adds b c given failure b' → P b → P b') (hb : P b)
    (calls : List (Code × Option String)) : P (b.addAll calls) := by
  induction calls generalizing b with
  | nil => exact hb
  | cons call rest ih => exact ih (hstep _ _ _ _ _ (adds_add b call.1 call.2) hb)

/-- After any calls, each path has one entry, and no further call changes it or its place. A call that
is rejected because a path holds another content adds the new entries of the files before that one, and
nothing else. -/
theorem entries_after_calls (name version description : String)
    (calls : List (Code × Option String)) (c : Code) (given : Option String) :
    let b := addAll { name, version, description } calls
    let b' := (b.add c given).state.bundle
    (b.entries.map (·.path)).Nodup ∧ b.entries <+: b'.entries ∧
      (∀ path old, b.find? path = some old → b'.find? path = some old) ∧
      ∀ e, (b.add c given).failure = some (.bundle e) →
        ∃ place path before file after old, placeOf c given = .ok place ∧
          c.files = before ++ file :: after ∧ pathOf? place file = some path ∧
          b'.find? path = some old ∧ old.content ≠ file.2.content ∧ e = .taken path ∧
          b' = b.grown c.framework place before ∧ b'.dependencies = b.dependencies := by
  intro b b'
  have hadds : b.Adds c given (b.add c given).failure b' := adds_add b c given
  have hprefix := hadds.entries_prefix
  refine ⟨?_, hprefix, fun path old => find?_of_prefix hprefix, fun e he => ?_⟩
  · refine addAll_keeps (P := fun b => (b.entries.map (·.path)).Nodup)
      (fun _ _ _ _ _ h => h.nodup_paths) ?_ calls
    exact List.nodup_nil
  · generalize b' = after at hadds
    rw [he] at hadds
    cases hadds with
    | rejected hplace hfiles hpath hold hne =>
      exact ⟨_, _, _, _, _, _, hplace, hfiles, hpath, hold, hne, rfl, rfl, rfl⟩

def sampleCode (name content : String) : Code where
  files := [("main", ⟨name, content⟩), ("index", ⟨"index.js", content⟩)]
  framework := .react

theorem entries_after_calls_sample :
    let b := addAll {} [(sampleCode "A.jsx" "1", some "d")]
    let done := b.add (sampleCode "B.jsx" "2") (some "/d/")
    done.failure = some (.bundle (.taken "d/index.js")) ∧
      done.state.bundle.find? "d/index.js" = some ⟨"d/index.js", "1", .react, "index"⟩ ∧
      done.state.bundle.dependencies = b.dependencies := by
  intro b done
  have hfailure : done.failure = some (.bundle (.taken "d/index.js")) := by decide
  obtain ⟨-, -, hkept, hrejected⟩ := entries_after_calls "ui-bundle" "0.1.0" ""
    [(sampleCode "A.jsx" "1", some "d")] (sampleCode "B.jsx" "2") (some "/d/")
  obtain ⟨_, _, _, _, _, _, -, -, -, -, -, -, -, hdependencies⟩ := hrejected _ hfailure
  exact ⟨hfailure, hkept _ _ (by decide), hdependencies⟩

/-- A rejected call may leave entries: here that of the file before the one whose path is taken. -/
theorem rejected_call_not_unchanged :
    ¬ ∀ (calls : List (Code × Option String)) (c : Code) (given : Option String) (e : BundleError),
      ((addAll {} calls).add c given).failure = some (.bundle e) →
        ((addAll {} calls).add c given).state.bundle.entries = (addAll {} calls).entries := by
  intro h
  have hsame := h [(sampleCode "A.jsx" "1", some "d")] (sampleCode "B.jsx" "2") (some "d")
    (.taken "d/index.js") (by decide)
  exact absurd hsame (by decide)

end ViewWriter.Bundle
