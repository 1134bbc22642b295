import ViewWriter.Proofs.Generator.Equipment

/-! Registrations that fail. What the store took before the failure stays in it, and that is all. -/

namespace ViewWriter

open ViewWriter.Template ViewWriter.Text

namespace Template.Store

/-- The store `t` is `s` with these texts and helpers put for one generator. -/
structure Adds (s : Store) (generator : String) (texts : Table String) (fs : Table Helper)
    (t : Store) : Prop where
  frozen : t.frozen = s.frozen
  shared : t.shared = s.shared
  template (other kind : String) : t.find? other kind =
    if other = generator then (texts.get? kind).or (s.find? generator kind) else s.find? other kind
  own (other : String) : t.ownOf other =
    if other = generator then (s.ownOf generator).merge fs else s.ownOf other

/-- Why a candidate is no helper under a name. -/
inductive Refuses (name : String) : Candidate → StoreError → Prop
  | value (v : Json) : Refuses name (.value v) (.notCallable name)
  | name (f : Helper) : isName name.toList = false → Refuses name (.function f) (.badName name)

variable {s t u : Store} {generator kind name : String} {texts : Table String} {fs : Table Helper}
  {templates : Table Json} {e : StoreError}

lemma adds_nothing (s : Store) (generator : String) : s.Adds generator [] [] s where
  frozen := rfl
  shared := rfl
  template other kind := by
    split_ifs with h
    · rw [h]
      rfl
    · rfl
  own other := by
    split_ifs with h
    · rw [h]
      rfl
    · rfl

lemma adds_template {source : String} (h : s.putTemplate generator kind (.str source) = .ok t)
    (ht : t.Adds generator texts [] u) (hkind : kind ∉ texts.keys) :
    s.Adds generator ((kind, source) :: texts) [] u := by
  obtain ⟨source', heq, hfind⟩ := find?_putTemplate h
  cases heq
  have hkept : t.frozen = s.frozen ∧ t.shared = s.shared ∧ t.own = s.own := by
    unfold putTemplate at h
    split_ifs at h
    cases h
    exact ⟨rfl, rfl, rfl⟩
  obtain ⟨hfrozen, hshared, hown⟩ := hkept
  refine ⟨ht.frozen.trans hfrozen, ht.shared.trans hshared, fun other k => ?_, fun other => ?_⟩
  · rw [ht.template, hfind, hfind, Table.get?_cons]
    by_cases hk : k = kind
    · subst hk
      simp only [and_true, if_true, Table.get?_of_notMem hkind, Option.none_or, Option.some_or]
      split_ifs
      · rfl
      · rfl
    · simp only [hk, and_false, if_false]
  · rw [ht.own, ownOf, ownOf, hown]
    rfl

lemma adds_helper {f : Helper}
    (h : s.putHelper name (.function f) (some generator) = .ok t)
    (ht : t.Adds generator [] fs u) : s.Adds generator [] ((name, f) :: fs) u := by
  obtain ⟨hshared, hown⟩ := ownOf_putHelper h
  have htemplates := templates_putHelper h
  have hfrozen : t.frozen = s.frozen := by
    simp only [putHelper] at h
    split_ifs at h
    cases h
    rfl
  refine ⟨ht.frozen.trans hfrozen, ht.shared.trans hshared, fun other k => ?_, fun other => ?_⟩
  · rw [ht.template, find?, find?, htemplates]
    rfl
  · rw [ht.own, hown, hown, if_pos rfl, Table.merge_cons]
    split_ifs
    · rfl
    · rfl

lemma Adds.trans (hst : s.Adds generator texts [] t) (htu : t.Adds generator [] fs u) :
    s.Adds generator texts fs u where
  frozen := htu.frozen.trans hst.frozen
  shared := htu.shared.trans hst.shared
  template other kind := by
    rw [htu.template, hst.template, hst.template, if_pos rfl]
    split_ifs
    · rfl
    · rfl
  own other := by
    rw [htu.own, hst.own, hst.own, if_pos rfl]
    split_ifs
    · rfl
    · rfl

/-! Runs over the kinds and over the helpers. -/

/-- The texts that are given for some kinds. -/
def Given (templates : Table Json) (texts : Table String) : Prop :=
  ∀ e ∈ texts, Json.member templates e.1 = .str e.2

lemma adds_of_kinds {kinds : List String} (hkinds : kinds.Nodup)
    (h : kinds.foldlM (fun s kind => s.putTemplate generator kind (Json.member templates kind)) s =
      .ok u) : ∃ texts, texts.keys = kinds ∧ Given templates texts ∧ s.Adds generator texts [] u := by
  induction kinds generalizing s with
  | nil =>
    cases h
    exact ⟨[], rfl, fun _ he => absurd he List.not_mem_nil, adds_nothing _ generator⟩
  | cons kind rest ih =>
    rw [List.foldlM_cons, bind_eq_ok_iff] at h
    obtain ⟨t, ht, h⟩ := h
    obtain ⟨hkind, hrest⟩ := List.nodup_cons.1 hkinds
    obtain ⟨texts, rfl, hgiven, hadds⟩ := ih hrest h
    obtain ⟨source, hsource, -⟩ := find?_putTemplate ht
    refine ⟨(kind, source) :: texts, rfl, List.forall_mem_cons.2 ⟨hsource, hgiven⟩, ?_⟩
    exact adds_template (hsource ▸ ht) hadds hkind

lemma adds_of_helpers {helpers : List (String × Candidate)}
    (h : helpers.foldlM (fun s h => s.putHelper h.1 h.2 (some generator)) s = .ok u) :
    ∃ fs : Table Helper, helpers = fs.map (fun e => (e.1, Candidate.function e.2)) ∧
      s.Adds generator [] fs u := by
  induction helpers generalizing s with
  | nil =>
    cases h
    exact ⟨[], rfl, adds_nothing _ generator⟩
  | cons helper rest ih =>
    rw [List.foldlM_cons, bind_eq_ok_iff] at h
    obtain ⟨t, ht, h⟩ := h
    obtain ⟨fs, rfl, hadds⟩ := ih h
    obtain ⟨name, candidate⟩ := helper
    cases candidate with
    | value v =>
      simp only [putHelper] at ht
      split_ifs at ht
    | function f => exact ⟨(name, f) :: fs, rfl, adds_helper ht hadds⟩

lemma notText_of_error (hopen : s.frozen = false) (hkind : kind ∈ artifactKinds) {v : Json}
    (h : s.putTemplate generator kind v = .error e) :
    e = .notText generator kind ∧ ∀ text, v ≠ .str text := by
  simp only [putTemplate, hopen, Bool.false_eq_true, if_false, List.contains_iff_mem.2 hkind,
    Bool.not_true] at h
  split at h
  · cases h
  · rename_i hv
    cases h
    exact ⟨rfl, hv⟩

lemma refuses_of_error (hopen : s.frozen = false) {candidate : Candidate} {g : Option String}
    (h : s.putHelper name candidate g = .error e) : Refuses name candidate e := by
  cases candidate with
  | value v =>
    simp only [putHelper, hopen, Bool.false_eq_true, if_false] at h
    cases h
    exact .value v
  | function f =>
    simp only [putHelper, hopen, Bool.false_eq_true, if_false] at h
    split_ifs at h with hname
    · cases h
      exact .name f (by simpa using hname)
    · cases g <;> cases h

end Template.Store

namespace Registry

/-- Where a registration stops, and with what: the texts and helpers that were put before. -/
inductive Stops (store : Store) (g : Generator) : StoreError → Table String → Table Helper → Prop
  | frozen : store.frozen = true → Stops store g .frozen [] []
  | kinds {missing unexpected : List String} : store.frozen = false →
      (∀ kind, kind ∈ missing ↔ kind ∈ artifactKinds ∧ kind ∉ g.target.templates.keys) →
      (∀ kind, kind ∈ unexpected ↔ kind ∈ g.target.templates.keys ∧ kind ∉ artifactKinds) →
      missing ≠ [] ∨ unexpected ≠ [] →
      Stops store g (.wrongKinds g.framework.key missing unexpected) [] []
  | template {texts : Table String} {kind : String} {after : List String} :
      store.frozen = false → artifactKinds = texts.keys ++ kind :: after →
      Store.Given g.target.templates texts →
      (∀ text, Json.member g.target.templates kind ≠ .str text) →
      Stops store g (.notText g.framework.key kind) texts []
  | helper {texts : Table String} {fs : Table Helper} {name : String} {candidate : Candidate}
      {after : List (String × Candidate)} {e : StoreError} :
      store.frozen = false → texts.keys = artifactKinds → Store.Given g.target.templates texts →
      g.target.helpers = fs.map (fun f => (f.1, Candidate.function f.2)) ++ (name, candidate) :: after →
      Store.Refuses name candidate e → Stops store g e texts fs

variable {r : Registry} {g : Generator} {replace : Bool} {e : StoreError} {store : Store}

lemma stops_of_templates
    (h : (store.putTemplates g.framework.key g.target.templates).failure = some e) :
    ∃ texts, Stops store g e texts [] ∧ store.Adds g.framework.key texts []
      (store.putTemplates g.framework.key g.target.templates).state ∧
      (texts = [] → (store.putTemplates g.framework.key g.target.templates).state = store) := by
  simp only [Store.putTemplates] at h ⊢
  split_ifs at h ⊢ with hfrozen hkinds
  · cases h
    exact ⟨[], .frozen hfrozen, Store.adds_nothing store _, fun _ => rfl⟩
  · have hopen := eq_false_of_ne_true hfrozen
    obtain ⟨before, kind, after, heq, hbefore, hkind⟩ := Attempt.exists_stop h
    have hnodup : artifactKinds.Nodup := by decide
    rw [heq] at hnodup
    obtain ⟨texts, rfl, hgiven, hadds⟩ :=
      Store.adds_of_kinds (List.nodup_append.1 hnodup).1 hbefore
    obtain ⟨rfl, htext⟩ := Store.notText_of_error (hadds.frozen.trans hopen) (by simp [heq]) hkind
    refine ⟨texts, .template hopen heq hgiven htext, hadds, ?_⟩
    rintro rfl
    exact (Except.ok.inj hbefore).symm
  · cases h
    refine ⟨[], .kinds (eq_false_of_ne_true hfrozen) (fun kind => ?_) (fun kind => ?_) ?_,
      Store.adds_nothing store _, fun _ => rfl⟩
    · rw [List.mem_filter, ← Table.has_iff]
      simp
    · rw [List.mem_mergeSort, List.mem_filter]
      simp
    · by_contra hnone
      obtain ⟨hmissing, hunexpected⟩ := not_or.1 hnone
      rw [not_not.1 hmissing, not_not.1 hunexpected] at hkinds
      exact hkinds rfl

lemma stops_of_helpers
    (htemplates : (store.putTemplates g.framework.key g.target.templates).failure = none)
    (h : ((store.putTemplates g.framework.key g.target.templates).state.putHelpers g.target.helpers
      (some g.framework.key)).failure = some e) :
    ∃ texts fs, texts ≠ [] ∧ Stops store g e texts fs ∧ store.Adds g.framework.key texts fs
      ((store.putTemplates g.framework.key g.target.templates).state.putHelpers g.target.helpers
        (some g.framework.key)).state := by
  simp only [Store.putTemplates] at htemplates h ⊢
  split_ifs at htemplates h ⊢ with hfrozen hkinds
  have hopen := eq_false_of_ne_true hfrozen
  obtain ⟨texts, hkeys, hgiven, hput⟩ :=
    Store.adds_of_kinds (by decide) (Attempt.foldlM_of_each htemplates)
  obtain ⟨before, ⟨name, candidate⟩, after, heq, hbefore, hstop⟩ := Attempt.exists_stop h
  obtain ⟨fs, rfl, hadds⟩ := Store.adds_of_helpers hbefore
  have hadds := hput.trans hadds
  have hrefuses := Store.refuses_of_error (hadds.frozen.trans hopen) hstop
  refine ⟨texts, fs, ?_, .helper hopen hkeys hgiven heq hrefuses, hadds⟩
  rintro rfl
  exact absurd hkeys (by decide)

lemma stops_of_filled
    (h : ((store.putTemplates g.framework.key g.target.templates).andThen
      fun s => s.putHelpers g.target.helpers (some g.framework.key)).failure = some e) :
    ∃ texts fs, Stops store g e texts fs ∧
      let filled := ((store.putTemplates g.framework.key g.target.templates).andThen
        fun s => s.putHelpers g.target.helpers (some g.framework.key)).state
      (texts = [] → filled = store) ∧ store.Adds g.framework.key texts fs filled := by
  rcases Attempt.andThen_of_stopped h with ⟨hstop, heq⟩ | ⟨htemplates, heq⟩
  · obtain ⟨texts, hstops, hadds, hnone⟩ := stops_of_templates hstop
    rw [heq]
    exact ⟨texts, [], hstops, hnone, hadds⟩
  · rw [heq] at h ⊢
    obtain ⟨texts, fs, hsome, hstops, hadds⟩ := stops_of_helpers htemplates h
    exact ⟨texts, fs, hstops, fun htexts => absurd htexts hsome, hadds⟩

/-- A registration that fails leaves the generators, the active one, the shared helpers and all that
is stored for other generators. Of its own texts and helpers the store has those that were put before
the one that stopped it, over what it had; where none was put the registry is the one before. -/
theorem register_failed (r : Registry) (g : Generator) (replace : Bool) (e : StoreError)
    (h : (r.register g replace).failure = some e) :
    let r' := (r.register g replace).state
    let key := g.framework.key
    ∃ texts fs, Stops r.store g e texts fs ∧ (texts = [] → r' = r) ∧
      r'.generators = r.generators ∧ r'.active = r.active ∧
      r'.store.frozen = r.store.frozen ∧ r'.store.shared = r.store.shared ∧
      (∀ other ≠ key, (∀ kind, r'.store.find? other kind = r.store.find? other kind) ∧
        r'.store.helpersFor (some other) = r.store.helpersFor (some other)) ∧
      (∀ kind, r'.store.find? key kind = (texts.get? kind).or (r.store.find? key kind)) ∧
      r'.store.helpersFor (some key) =
        r.store.shared.merge ((r.store.ownOf key).merge fs) := by
  intro r' key
  have hadded : ∃ store texts fs, r' = { r with store } ∧ Stops r.store g e texts fs ∧
      (texts = [] → store = r.store) ∧ r.store.Adds key texts fs store := by
    have hstate : r' = (r.register g replace).state := rfl
    rw [register] at h hstate
    by_cases hskip : (r.has g.framework && !replace) = true
    · rw [if_pos hskip] at h
      cases h
    · rw [if_neg hskip] at h hstate
      obtain ⟨texts, fs, hstops, hnone, hadds⟩ := stops_of_filled h
      refine ⟨_, texts, fs, ?_, hstops, hnone, hadds⟩
      dsimp only at h hstate
      rw [h] at hstate
      exact hstate
  obtain ⟨store, texts, fs, hr', hstops, hnone, hadds⟩ := hadded
  rw [hr']
  refine ⟨texts, fs, hstops, fun htexts => by rw [hnone htexts], rfl, rfl, hadds.frozen,
    hadds.shared, fun other hother => ⟨fun kind => ?_, ?_⟩, fun kind => ?_, ?_⟩
  · rw [hadds.template, if_neg hother]
  · have hown := (hadds.own other).trans (if_neg hother)
    rw [Store.helpersFor, Store.helpersFor, hadds.shared, ← Store.ownOf, hown]
    rfl
  · rw [hadds.template, if_pos rfl]
  · have hown := (hadds.own key).trans (if_pos rfl)
    rw [Store.helpersFor, hadds.shared, ← Store.ownOf, hown]

def misnamed : Generator :=
  .custom .react {}
    (some (artifactKinds.map fun kind => (kind, Json.str kind)))
    (some [("mark", .function Helper.htmlEscape), ("two words", .function Helper.htmlEscape)]) ""

theorem register_failed_misnamed :
    let r := (register {} (.ofFramework .react {}) false).state
    let r' := (r.register misnamed true).state
    (r.register misnamed true).failure = some (.badName "two words") ∧
      r'.store.find? "react" "page" = some "page" ∧
      ∃ texts fs, Stops r.store misnamed (.badName "two words") texts fs ∧
        r'.generators = r.generators ∧
        ∀ kind, r'.store.find? "react" kind = (texts.get? kind).or (r.store.find? "react" kind) := by
  intro r r'
  have h : (r.register misnamed true).failure = some (.badName "two words") := by decide +kernel
  refine ⟨h, by decide +kernel, ?_⟩
  obtain ⟨texts, fs, hstops, -, hgenerators, -, -, -, -, htemplates, -⟩ :=
    register_failed r misnamed true _ h
  exact ⟨texts, fs, hstops, hgenerators, htemplates⟩

/-- A failed registration may leave something: here the templates before the one that is no text. -/
theorem register_failed_not_unchanged :
    ¬ ∀ (r : Registry) (g : Generator) (replace : Bool),
      (r.register g replace).failure.isSome → ∀ key kind,
        (r.register g replace).state.store.find? key kind = r.store.find? key kind := by
  intro h
  have hsame := h {} (.custom .react {}
    (some [("component", .str "a"), ("page", .str "b"), ("styles", .int 5), ("index", .str "d")])
    none "") false (by decide +kernel) "react" "component"
  exact absurd hsame (by decide +kernel)

end Registry

end ViewWriter
