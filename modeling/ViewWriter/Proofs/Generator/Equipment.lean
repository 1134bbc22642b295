import ViewWriter.Proofs.Generator.Run
import ViewWriter.Proofs.Table

/-! The helpers of a registry as it comes: the shared ones, and those of each of its generators. -/

namespace ViewWriter

open ViewWriter.Template

/-- The helpers that the target of a framework brings with it. -/
def Target.ownHelpers : Framework → Table Helper
  | .react => [("docComment", Helper.docComment)]
  | .vue => []
  | .angular =>
    [("docComment", Helper.docComment), ("templateLiteral", Helper.templateLiteral)]
  | .html => [("htmlEscape", Helper.htmlEscape)]

lemma Target.helpers_ofFramework (f : Framework) : (Target.ofFramework f).helpers =
    (Target.ownHelpers f).map fun e => (e.1, .function e.2) := by
  cases f <;> rfl

namespace Template.Store

variable {s s' : Store} {generator : String}

/-- The helpers that a store has for a generator besides the shared ones. -/
def ownOf (s : Store) (generator : String) : Table Helper := (s.own.get? generator).getD []

lemma ownOf_putHelper {name : String} {f : Helper}
    (h : s.putHelper name (.function f) (some generator) = .ok s') :
    s'.shared = s.shared ∧ ∀ other, s'.ownOf other =
      if other = generator then (s.ownOf generator).set name f else s.ownOf other := by
  simp only [putHelper] at h
  split_ifs at h
  cases h
  refine ⟨rfl, fun other => ?_⟩
  by_cases hother : other = generator <;> simp [ownOf, hother]

lemma ownOf_putHelpers {helpers : Table Helper}
    (h : (s.putHelpers (helpers.map fun e => (e.1, .function e.2)) (some generator)).failure =
      none) :
    let filled := (s.putHelpers (helpers.map fun e => (e.1, .function e.2)) (some generator)).state
    filled.shared = s.shared ∧ ∀ other, filled.ownOf other =
      if other = generator then (s.ownOf generator).merge helpers else s.ownOf other := by
  simp only [putHelpers] at h ⊢
  induction helpers generalizing s with
  | nil =>
    refine ⟨rfl, fun other => ?_⟩
    by_cases hother : other = generator <;> simp [Attempt.each, Table.merge, hother]
  | cons e rest ih =>
    simp only [List.map_cons, Attempt.each] at h ⊢
    cases hput : s.putHelper e.1 (.function e.2) (some generator) with
    | error err =>
      rw [hput] at h
      cases h
    | ok t =>
      rw [hput] at h
      obtain ⟨hshared, hown⟩ := ownOf_putHelper hput
      obtain ⟨hsharedRest, hownRest⟩ := ih h
      refine ⟨hsharedRest.trans hshared, fun other => (hownRest other).trans ?_⟩
      by_cases hother : other = generator
      · simp [hother, hown, Table.merge_cons]
      · simp [hother, hown]

lemma putTemplates_keeps {templates : Table Json}
    (h : (s.putTemplates generator templates).failure = none) :
    (s.putTemplates generator templates).state.shared = s.shared ∧
      (s.putTemplates generator templates).state.own = s.own := by
  simp only [putTemplates] at h ⊢
  split_ifs at h ⊢
  refine foldlM_keeps (P := fun t => t.shared = s.shared ∧ t.own = s.own) ?_ ⟨rfl, rfl⟩
    (Attempt.foldlM_of_each h)
  intro kind _ t t' ht hput
  unfold putTemplate at hput
  split_ifs at hput
  split at hput
  · cases hput
    exact ht
  · cases hput

end Template.Store

namespace Registry

variable {r r' : Registry} {folder : Folder} {settings : Settings} {frameworks active : Json}

/-- The store has the shared helpers, and for every framework that is registered its own. -/
structure Equipped (r : Registry) : Prop where
  shared : r.store.shared = Helper.shared
  own (f : Framework) : r.store.ownOf f.key = if r.has f then Target.ownHelpers f else []

lemma equipped_register {f : Framework} {config : Config} (hr : r.Equipped)
    (h : (r.register (Generator.ofFramework f config) false).failure = none) :
    (r.register (Generator.ofFramework f config) false).state.Equipped := by
  by_cases hhas : r.has f = true
  · simpa only [register, framework_ofFramework, hhas, Bool.not_false, Bool.and_true, if_true] using hr
  simp only [register, framework_ofFramework, hhas, Bool.false_and, Bool.false_eq_true, if_false]
    at h ⊢
  obtain ⟨htemplates, hfilled⟩ := Attempt.andThen_of_done h
  rw [hfilled] at h ⊢
  obtain ⟨hshared, hown⟩ := Template.Store.putTemplates_keeps htemplates
  have hhelpers : (Generator.ofFramework f config).target.helpers =
      (Target.ownHelpers f).map fun e => (e.1, .function e.2) := Target.helpers_ofFramework f
  rw [hhelpers] at h ⊢
  obtain ⟨hsharedPut, hownPut⟩ := Template.Store.ownOf_putHelpers h
  simp only [h, Option.isNone_none, if_true]
  refine ⟨hsharedPut.trans (hshared.trans hr.shared), fun f' => (hownPut f'.key).trans ?_⟩
  have hkept : ∀ f'' : Framework, ((r.store.putTemplates f.key
      (Generator.ofFramework f config).target.templates).state.ownOf f''.key) =
        if r.has f'' then Target.ownHelpers f'' else [] := by
    intro f''
    rw [← hr.own f'', Template.Store.ownOf, hown, ← Template.Store.ownOf]
  by_cases hf : f' = f
  · subst hf
    rw [if_pos rfl, hkept, if_neg (by simpa using hhas), if_pos]
    · cases f' <;> rfl
    · exact has_iff.2 (exists_put.2 (.inl (framework_ofFramework f' config)))
  · rw [if_neg fun hkey => hf (Framework.key_injective hkey), hkept]
    refine if_congr ?_ rfl rfl
    rw [has_iff, has_iff, exists_put, framework_ofFramework]
    exact (or_iff_right (Ne.symm hf)).symm

lemma equipped_create (h : create folder frameworks settings active = .ok r) : r.Equipped := by
  refine create_induction ⟨rfl, fun f => rfl⟩ (fun r f config => equipped_register) ?_ h
  intro r r' hgenerators hstore hr
  refine ⟨hstore ▸ hr.shared, fun f => ?_⟩
  rw [hstore, hr.own f, has, has, find?, find?, hgenerators]

lemma helpersFor_create (h : create folder frameworks settings active = .ok r) {g : Generator}
    (hg : g ∈ r.generators) : r.store.helpersFor (some g.framework.key) =
      Table.merge Helper.shared (Target.ownHelpers g.framework) := by
  obtain ⟨hshared, hown⟩ := equipped_create h
  have hhas : r.has g.framework = true := has_iff.2 ⟨g, hg, rfl⟩
  have howned : (r.store.own.get? g.framework.key).getD [] = Target.ownHelpers g.framework := by
    rw [← Template.Store.ownOf, hown, if_pos hhas]
  rw [Store.helpersFor, hshared, howned]

end Registry

end ViewWriter
