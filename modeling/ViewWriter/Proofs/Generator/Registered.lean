import Mathlib.Tactic.Lemma
import Mathlib.Tactic.SplitIfs
import ViewWriter.Generator.Registry
import ViewWriter.Proofs.Traversal

/-! Registries of the generators as they come. Their store holds the templates of each of them. -/

namespace ViewWriter

namespace Template.Store

variable {s s' : Store} {generator other kind : String} {templates : Table Json}

lemma find?_putTemplate {v : Json} (h : s.putTemplate generator kind v = .ok s') :
    ∃ source, v = .str source ∧ ∀ other k, s'.find? other k =
      if other = generator ∧ k = kind then some source else s.find? other k := by
  unfold putTemplate at h
  split_ifs at h
  split at h
  · rename_i source
    cases h
    refine ⟨source, rfl, fun other k => ?_⟩
    by_cases hother : other = generator
    · subst hother
      simp [find?]
    · simp [find?, hother]
  · cases h

lemma find?_putKinds {kinds : List String}
    (h : kinds.foldlM (fun s kind => s.putTemplate generator kind (Json.member templates kind)) s =
      .ok s') :
    (∀ other ≠ generator, ∀ k, s'.find? other k = s.find? other k) ∧
      ∀ k source, Json.member templates k = .str source →
        (k ∈ kinds ∨ s.find? generator k = some source) → s'.find? generator k = some source := by
  induction kinds generalizing s with
  | nil =>
    cases h
    exact ⟨fun _ _ _ => rfl, fun k source _ hk => hk.resolve_left List.not_mem_nil⟩
  | cons kind rest ih =>
    rw [List.foldlM_cons, bind_eq_ok_iff] at h
    obtain ⟨t, ht, h⟩ := h
    obtain ⟨put, hput, hfind⟩ := find?_putTemplate ht
    obtain ⟨hothers, hown⟩ := ih h
    refine ⟨fun other hother k => ?_, fun k source hsource hk => hown k source hsource ?_⟩
    · rw [hothers other hother k, hfind, if_neg (fun h => hother h.1)]
    · rw [hfind, List.mem_cons] at *
      by_cases hkind : k = kind
      · subst hkind
        rw [if_pos ⟨rfl, rfl⟩, Json.str.inj (hsource.symm.trans hput)]
        exact .inr rfl
      · rw [if_neg (fun h => hkind h.2)]
        exact hk.imp_left fun hk => hk.resolve_left hkind

lemma find?_putTemplates (h : (s.putTemplates generator templates).failure = none) :
    (∀ other ≠ generator, ∀ k,
      (s.putTemplates generator templates).state.find? other k = s.find? other k) ∧
      ∀ k ∈ artifactKinds, ∀ source, Json.member templates k = .str source →
        (s.putTemplates generator templates).state.find? generator k = some source := by
  simp only [putTemplates] at h ⊢
  split_ifs at h ⊢
  obtain ⟨hothers, hown⟩ := find?_putKinds (Attempt.foldlM_of_each h)
  exact ⟨hothers, fun k hk source hsource => hown k source hsource (.inl hk)⟩

lemma find?_putHelpers {helpers : List (String × Candidate)} {g : Option String}
    (h : (s.putHelpers helpers g).failure = none) (other k : String) :
    (s.putHelpers helpers g).state.find? other k = s.find? other k := by
  refine foldlM_keeps (P := fun t => t.find? other k = s.find? other k) ?_ rfl
    (Attempt.foldlM_of_each h)
  intro helper _ t t' ht hstep
  unfold putHelper at hstep
  cases hhelper : helper.2 with
  | value v =>
    rw [hhelper] at hstep
    split_ifs at hstep
  | function f =>
    rw [hhelper] at hstep
    cases g with
    | none =>
      simp only at hstep
      split_ifs at hstep
      cases hstep
      exact ht
    | some g =>
      simp only at hstep
      split_ifs at hstep
      cases hstep
      exact ht

end Template.Store

namespace Framework

lemma key_injective : Function.Injective key := by
  intro f g h
  cases f <;> cases g <;> first | rfl | exact absurd h (by decide)

end Framework

namespace Registry

variable {r r' : Registry} {folder : Folder} {settings : Settings}

/-- The generator is that of a framework, and the store has its templates. -/
def Stocks (r : Registry) (g : Generator) : Prop :=
  ∃ f config, g = Generator.ofFramework f config ∧ ∀ kind ∈ Template.artifactKinds, ∀ source,
    Json.member g.target.templates kind = .str source → r.store.find? f.key kind = some source

lemma framework_ofFramework (f : Framework) (config : Config) :
    (Generator.ofFramework f config).framework = f := by
  cases f <;> rfl

lemma Stocks.find? {f : Framework} {config : Config} (h : r.Stocks (Generator.ofFramework f config))
    {kind source : String} (hkind : kind ∈ Template.artifactKinds)
    (hsource : Json.member (Target.ofFramework f).templates kind = .str source) :
    r.store.find? f.key kind = some source := by
  obtain ⟨f', config', heq, hstock⟩ := h
  have hf : f = f' := by rw [← framework_ofFramework f config, heq, framework_ofFramework]
  subst hf
  exact hstock kind hkind source hsource

lemma mem_put {generators : List Generator} {g new : Generator} (h : g ∈ put generators new) :
    g = new ∨ g ∈ generators := by
  rw [put] at h
  split_ifs at h
  · obtain ⟨old, hold, rfl⟩ := List.mem_map.1 h
    split_ifs
    · exact .inl rfl
    · exact .inr hold
  · exact (List.mem_append.1 h).symm.imp_left List.mem_singleton.1

/-- A generator whose templates the store takes in is stocked, and the others stay so. -/
lemma stocks_register {new : Generator} (hr : ∀ g ∈ r.generators, r.Stocks g)
    (hnew : ∃ f config, new = Generator.ofFramework f config)
    (h : (r.register new false).failure = none) :
    ∀ g ∈ (r.register new false).state.generators, (r.register new false).state.Stocks g := by
  by_cases hhas : r.has new.framework = true
  · simpa only [register, hhas, Bool.not_false, Bool.and_true, if_true] using hr
  simp only [register, hhas, Bool.false_and, Bool.false_eq_true, if_false] at h ⊢
  obtain ⟨htemplates, hfilled⟩ := Attempt.andThen_of_done h
  rw [hfilled] at h ⊢
  obtain ⟨hothers, hown⟩ := Template.Store.find?_putTemplates htemplates
  simp only [h, Option.isNone_none, if_true]
  intro g hg
  rcases mem_put hg with rfl | hg
  · obtain ⟨f, config, rfl⟩ := hnew
    refine ⟨f, config, rfl, fun kind hkind source hsource => ?_⟩
    have hfound := hown kind hkind source hsource
    rw [framework_ofFramework] at hfound
    rwa [Template.Store.find?_putHelpers h, framework_ofFramework]
  · obtain ⟨f, config, rfl, hstock⟩ := hr g hg
    refine ⟨f, config, rfl, fun kind hkind source hsource => ?_⟩
    have hne : f.key ≠ new.framework.key := by
      intro hkey
      refine hhas ?_
      rw [has, find?, List.find?_isSome]
      exact ⟨_, hg, by rw [framework_ofFramework, Framework.key_injective hkey, beq_self_eq_true]⟩
    rw [Template.Store.find?_putHelpers h, hothers f.key hne]
    exact hstock kind hkind source hsource

lemma activate_keeps {key : Json} (h : r.activate key = .ok r') :
    r'.generators = r.generators ∧ r'.store = r.store := by
  obtain ⟨f, -, h⟩ := bind_eq_ok_iff.1 h
  split_ifs at h
  · cases h
  · split at h
    · split_ifs at h
      cases h
      exact ⟨rfl, rfl⟩
    · cases h
      exact ⟨rfl, rfl⟩

/-- What every generator that comes in keeps, whichever is active in the end, holds of a new registry. -/
lemma create_induction {P : Registry → Prop} (hempty : P { store := Template.Store.withShared })
    (hregister : ∀ r f config, P r →
      (r.register (Generator.ofFramework f config) false).failure = none →
      P (r.register (Generator.ofFramework f config) false).state)
    (hactivate : ∀ r r' : Registry, r'.generators = r.generators → r'.store = r.store → P r → P r')
    {frameworks active : Json} (h : create folder frameworks settings active = .ok r) : P r := by
  obtain ⟨fs, -, h⟩ := bind_eq_ok_iff.1 h
  obtain ⟨filled, hfilled, h⟩ := bind_eq_ok_iff.1 h
  have hkept : P filled := by
    refine foldlM_keeps ?_ hempty hfilled
    intro f _ r r' hr hr'
    obtain ⟨config, -, hr'⟩ := bind_eq_ok_iff.1 hr'
    have hadded := mapError_eq_ok_iff.1 hr'
    rw [Attempt.toExcept] at hadded
    split at hadded
    · rename_i hdone
      cases hadded
      exact hregister r f config hr hdone
    · cases hadded
  split_ifs at h
  · cases h
    exact hkept
  · obtain ⟨hgenerators, hstore⟩ := activate_keeps h
    exact hactivate filled r hgenerators hstore hkept

lemma stocks_create {frameworks active : Json}
    (h : create folder frameworks settings active = .ok r) : ∀ g ∈ r.generators, r.Stocks g := by
  refine create_induction (P := fun r => ∀ g ∈ r.generators, r.Stocks g) ?_ ?_ ?_ h
  · exact fun g hg => by cases hg
  · exact fun r f config hr hdone => stocks_register hr ⟨f, config, rfl⟩ hdone
  · intro r r' hgenerators hstore hstocks g hg
    obtain ⟨f, config, rfl, hstock⟩ := hstocks g (hgenerators ▸ hg)
    exact ⟨f, config, rfl, hstore ▸ hstock⟩

lemma mem_of_resolve {wanted : Option Framework} {g : Generator} (h : r.resolve wanted = .ok g) :
    g ∈ r.generators := by
  have hfind {f : Framework} (hf : r.find? f = some g) : g ∈ r.generators :=
    List.mem_of_find?_eq_some hf
  rw [resolve.eq_def] at h
  split at h
  · cases h
  · rename_i f hgenerators
    rw [get] at h
    split at h
    · rename_i g' hg'
      cases h
      exact hfind hg'
    · cases h
  · rename_i first rest hgenerators
    cases h
    cases hactive : r.active.bind r.find? with
    | none => exact hgenerators ▸ List.mem_cons_self
    | some g =>
      obtain ⟨f, -, hf⟩ := Option.bind_eq_some_iff.1 hactive
      exact List.mem_of_find?_eq_some hf

end Registry

end ViewWriter
