import ViewWriter.Generator.Request
import ViewWriter.Proofs.Generator.Registered

/-! Runs of a registry. Its generators find their templates after any steps, of which some may fail,
and a frozen store stays as it is. -/

namespace ViewWriter

open ViewWriter.Template

namespace Template.Store

variable {s s' : Store} {generator kind : String} {templates : Table Json}

lemma templates_putHelper {name : String} {helper : Candidate} {g : Option String}
    (h : s.putHelper name helper g = .ok s') : s'.templates = s.templates := by
  unfold putHelper at h
  cases helper with
  | value v => split_ifs at h
  | function f =>
    cases g <;>
    · simp only at h
      split_ifs at h
      cases h
      rfl

lemma has_putTemplate {v : Json} (h : s.putTemplate generator kind v = .ok s') :
    s'.has generator kind ∧ ∀ other k, s.has other k → s'.has other k := by
  obtain ⟨source, -, hfind⟩ := find?_putTemplate h
  refine ⟨by rw [has, hfind, if_pos ⟨rfl, rfl⟩]; rfl, fun other k hhas => ?_⟩
  rw [has, hfind]
  split_ifs
  · rfl
  · exact hhas

lemma has_putTemplates_of_has {other k : String} (h : s.has other k) :
    (s.putTemplates generator templates).state.has other k := by
  simp only [putTemplates]
  split_ifs
  · exact h
  · exact Attempt.each_keeps (fun _ _ _ hs hput => (has_putTemplate hput).2 other k hs) h _
  · exact h

lemma has_putKinds {kinds : List String}
    (h : (Attempt.each (fun s kind => s.putTemplate generator kind (Json.member templates kind)) s
      kinds).failure = none) :
    ∀ k ∈ kinds, (Attempt.each
      (fun s kind => s.putTemplate generator kind (Json.member templates kind)) s
      kinds).state.has generator k := by
  induction kinds generalizing s with
  | nil => simp
  | cons kind rest ih =>
    rw [Attempt.each] at h ⊢
    split
    · rename_i t ht
      rw [ht] at h
      refine List.forall_mem_cons.2 ⟨?_, ih h⟩
      exact Attempt.each_keeps (fun _ _ _ hs hput => (has_putTemplate hput).2 generator kind hs)
        (has_putTemplate ht).1 rest
    · rename_i e he
      rw [he] at h
      cases h

lemma has_putTemplates (h : (s.putTemplates generator templates).failure = none) :
    ∀ k ∈ artifactKinds, (s.putTemplates generator templates).state.has generator k := by
  simp only [putTemplates] at h ⊢
  split_ifs at h ⊢
  exact has_putKinds h

lemma has_putHelpers {other k : String} {helpers : List (String × Candidate)} {g : Option String}
    (h : s.has other k) : (s.putHelpers helpers g).state.has other k := by
  refine Attempt.each_keeps (P := fun t : Store => t.has other k) (fun _ t t' ht hput => ?_) h helpers
  rw [has, find?, templates_putHelper hput]
  exact ht

end Template.Store

namespace Registry

/-- What can be asked of a registry. -/
inductive Step where
  | register (g : Generator) (replace : Bool)
  | activate (key : Json)
  | freeze
  | generate (s : Subject) (o : Options)

/-- The registry after a step, whether or not the step fails. -/
def step (r : Registry) : Step → Registry
  | .register g replace => (r.register g replace).state
  | .activate key => (r.activate key).toOption.getD r
  | .freeze => r.freeze
  | .generate s o => (r.generate s o).1

def run (r : Registry) (steps : List Step) : Registry := steps.foldl step r

/-- All that a step can change. -/
inductive Changes (r : Registry) : Registry → Prop
  | nothing : Changes r r
  | frozen : Changes r r.freeze
  | activated {f : Framework} : r.active = none → r.has f → Changes r { r with active := some f }
  | filled {store : Store} : r.store.frozen = false →
      (∀ key kind, r.store.has key kind → store.has key kind) → Changes r { r with store }
  | registered {store : Store} {g : Generator} : r.store.frozen = false →
      (∀ key kind, r.store.has key kind → store.has key kind) →
      (∀ kind ∈ artifactKinds, store.has g.framework.key kind) →
      Changes r { r with store, generators := put r.generators g }

/-- Every generator finds its templates, and the active framework is available. -/
structure Sound (r : Registry) : Prop where
  stored : ∀ f, r.has f → ∀ kind ∈ artifactKinds, r.store.has f.key kind
  active : ∀ f, r.active = some f → r.has f

variable {r r' : Registry} {f : Framework}

lemma has_iff : r.has f = true ↔ ∃ g ∈ r.generators, g.framework = f := by
  rw [has, find?, List.find?_isSome]
  simp only [beq_iff_eq]

lemma exists_put {generators : List Generator} {new : Generator} :
    (∃ g ∈ put generators new, g.framework = f) ↔
      new.framework = f ∨ ∃ g ∈ generators, g.framework = f := by
  rw [put]
  split_ifs with hany
  · simp only [List.any_eq_true, beq_iff_eq] at hany
    have hframework (g : Generator) :
        (if g.framework == new.framework then new else g).framework = g.framework := by
      split_ifs with heq
      · exact (beq_iff_eq.1 heq).symm
      · rfl
    constructor
    · rintro ⟨placed, hplaced, rfl⟩
      obtain ⟨g, hg, rfl⟩ := List.mem_map.1 hplaced
      exact .inr ⟨g, hg, (hframework g).symm⟩
    · rintro (rfl | ⟨g, hg, rfl⟩)
      · obtain ⟨g, hg, hany⟩ := hany
        exact ⟨_, List.mem_map_of_mem hg, (hframework g).trans hany⟩
      · exact ⟨_, List.mem_map_of_mem hg, hframework g⟩
  · simp only [List.mem_append, List.mem_singleton, or_and_right, exists_or, exists_eq_left]
    exact or_comm

/-! Steps and what they change. -/

lemma changes_register (g : Generator) (replace : Bool) :
    r.Changes (r.register g replace).state := by
  -- a frozen store refuses before anything is written
  by_cases hfrozen : r.store.frozen = true
  · have hsame : (r.register g replace).state = r := by
      simp only [register, Store.putTemplates, hfrozen, if_true, Attempt.andThen, Option.isNone_some,
        Bool.false_eq_true, if_false]
      split_ifs <;> rfl
    rw [hsame]
    exact .nothing
  have hfrozen := eq_false_of_ne_true hfrozen
  simp only [register]
  split_ifs with hskip hdone
  · exact .nothing
  · have hdone := Option.isNone_iff_eq_none.1 hdone
    obtain ⟨htemplates, hfilled⟩ := Attempt.andThen_of_done hdone
    rw [hfilled]
    refine .registered hfrozen (fun key kind h => ?_) (fun kind hkind => ?_)
    · exact Store.has_putHelpers (Store.has_putTemplates_of_has h)
    · exact Store.has_putHelpers (Store.has_putTemplates htemplates kind hkind)
  · refine .filled hfrozen fun key kind h => ?_
    exact Attempt.andThen_keeps (P := fun s : Store => s.has key kind)
      (Store.has_putTemplates_of_has h) fun _ => Store.has_putHelpers

lemma changes_activate {key : Json} (h : r.activate key = .ok r') : r.Changes r' := by
  obtain ⟨f, -, h⟩ := bind_eq_ok_iff.1 h
  split_ifs at h with hhas
  · cases h
  · split at h
    · split_ifs at h
      cases h
      exact .nothing
    · rename_i hactive
      cases h
      exact .activated hactive (by simpa using hhas)

lemma changes_step (r : Registry) (s : Step) : r.Changes (r.step s) := by
  cases s with
  | register g replace => exact changes_register g replace
  | activate key =>
    rw [step]
    cases h : r.activate key with
    | ok r' => exact changes_activate h
    | error e => exact .nothing
  | freeze => exact .frozen
  | generate s o =>
    rw [step, generate]
    split
    · exact .nothing
    · exact .frozen

/-! What steps keep. -/

lemma Changes.sound (h : r.Changes r') (hr : r.Sound) : r'.Sound := by
  cases h with
  | nothing => exact hr
  | frozen => exact ⟨hr.stored, hr.active⟩
  | activated hnone hf =>
    exact ⟨hr.stored, fun f' h => Option.some.inj h ▸ hf⟩
  | filled _ hkept =>
    exact ⟨fun f hf kind hkind => hkept _ _ (hr.stored f hf kind hkind), hr.active⟩
  | registered _ hkept hnew =>
    refine ⟨fun f hf kind hkind => ?_, fun f h => ?_⟩
    · rcases exists_put.1 (has_iff.1 hf) with rfl | hf
      · exact hnew kind hkind
      · exact hkept _ _ (hr.stored f (has_iff.2 hf) kind hkind)
    · exact has_iff.2 (exists_put.2 (.inr (has_iff.1 (hr.active f h))))

lemma Changes.active (h : r.Changes r') (hf : r.active = some f) : r'.active = some f := by
  cases h with
  | nothing | frozen | filled | registered => exact hf
  | activated hnone => rw [hnone] at hf; cases hf

lemma Changes.frozen_keeps (h : r.Changes r') (hr : r.store.frozen = true) :
    r'.store = r.store ∧ r'.generators = r.generators := by
  cases h with
  | nothing | activated => exact ⟨rfl, rfl⟩
  | frozen => exact ⟨by rw [freeze, Store.freeze, ← hr], rfl⟩
  | filled hopen | registered hopen => rw [hopen] at hr; cases hr

lemma run_keeps {P : Registry → Prop} (hstep : ∀ r r', Changes r r' → P r → P r') (hr : P r)
    (steps : List Step) : P (r.run steps) := by
  induction steps generalizing r with
  | nil => exact hr
  | cons s rest ih => exact ih (hstep _ _ (changes_step r s) hr)

end Registry

/-! Failures that do not come from the store. -/

section Stored

variable {ε α β : Type}

/-- Whatever stops it, it is not the store. -/
def Unrefused (x : Except Failure α) : Prop := ∀ e, x ≠ .error (.store e)

lemma unrefused_ok (a : α) : Unrefused (.ok a) := fun _ h => by cases h

lemma Unrefused.bind {x : Except Failure α} {f : α → Except Failure β} (hx : Unrefused x)
    (hf : ∀ a, x = .ok a → Unrefused (f a)) : Unrefused (x >>= f) := by
  cases x with
  | error e =>
    intro e' h
    exact hx e' (congrArg Except.error (Except.error.inj h))
  | ok a => exact hf a rfl

lemma unrefused_mapError {f : ε → Failure} (hf : ∀ e e', f e ≠ .store e') (x : Except ε α) :
    Unrefused (x.mapError f) := by
  cases x with
  | error e => exact fun e' h => hf e e' (Except.error.inj h)
  | ok a => exact unrefused_ok a

lemma unrefused_fault (x : Except Fault α) : Unrefused (liftM x : Except Failure α) :=
  unrefused_mapError (fun _ _ h => by cases h) x

lemma unrefused_analysis (x : Except AnalysisError α) : Unrefused (liftM x : Except Failure α) :=
  unrefused_mapError (fun e _ h => by cases e <;> cases h) x

lemma unrefused_weight (x : Except Script.BadWeight α) : Unrefused (liftM x : Except Failure α) :=
  unrefused_mapError (fun _ _ h => by cases h) x

end Stored

namespace Generator

variable {g : Generator} {engine : Engine} {v : View} {s : Subject} {o : Options}

/-- The engine has the template of every kind. -/
def Supplied (engine : Engine) : Prop :=
  ∃ key, engine.generator = some key ∧ ∀ kind ∈ artifactKinds, engine.store.has key kind

lemma unrefused_artifact (h : Supplied engine) {kind : String} (hkind : kind ∈ artifactKinds)
    (context : Json) (name : String) : Unrefused (artifact engine context kind name) := by
  obtain ⟨key, hgenerator, hkinds⟩ := h
  obtain ⟨source, hsource⟩ := Option.isSome_iff_exists.1 (hkinds kind hkind)
  refine Unrefused.bind ?_ fun content _ => unrefused_ok _
  have hrender : engine.render kind context = engine.renderSource (some key) source context := by
    simp only [Engine.render, Engine.splitName, hgenerator, Store.template, hsource]
  rw [hrender, Engine.renderSource]
  split
  · exact unrefused_ok _
  · exact fun e h => by cases h

lemma unrefused_view : Unrefused (g.view s o) := by
  have hparts : Unrefused (g.parts s o) := by
    rw [parts]
    refine (unrefused_fault _).bind fun dialect _ => (unrefused_fault _).bind fun unit _ => ?_
    cases s <;> exact unrefused_analysis _
  rw [view]
  cases hp : g.parts s o with
  | error e => exact fun e' h => hparts e' (hp.trans (congrArg Except.error (Except.error.inj h)))
  | ok p => exact unrefused_ok _

lemma unrefused_files (h : Supplied engine) : Unrefused (g.files engine v) := by
  refine (unrefused_fault _).bind fun context _ => ?_
  refine (unrefused_artifact h (by cases v.page <;> decide) _ _).bind fun main _ => ?_
  refine (unrefused_artifact h (by decide) _ _).bind fun styles _ => ?_
  refine (unrefused_artifact h (by decide) _ _).bind fun index _ => ?_
  exact unrefused_ok _

lemma unrefused_generate (h : Supplied engine) : Unrefused (g.generate engine s o) := by
  refine unrefused_view.bind fun v _ => ?_
  refine Unrefused.bind ?_ fun code _ => ?_
  · refine (unrefused_files h).bind fun files _ => (unrefused_fault _).bind fun warnings _ => ?_
    exact unrefused_ok _
  · split_ifs
    · exact (unrefused_weight _).bind fun imports _ => unrefused_fault _
    · exact unrefused_ok _

end Generator

namespace Registry

variable {r : Registry} {s : Subject} {o : Options} {g : Generator}

lemma Sound.supplied (h : r.Sound) (hg : g ∈ r.generators) :
    Generator.Supplied (r.freeze.engine g) :=
  ⟨g.framework.key, rfl, h.stored g.framework (has_iff.2 ⟨g, hg, rfl⟩)⟩

lemma Sound.unrefused (h : r.Sound) (s : Subject) (o : Options) :
    Unrefused (r.generate s o).2 := by
  rw [generate]
  split
  · exact fun e h => by cases h
  · rename_i g hg
    exact Generator.unrefused_generate (h.supplied (mem_of_resolve hg))

/-- Whatever was asked of a registry, its generators find all their templates, and no request fails
for want of one. The active framework is available and stays active. A request that finds its
generator freezes the store, and then no step changes what is stored or which generators there
are. -/
theorem run_sound (store : Store) (steps : List Step) :
    let r := run { store } steps
    (∀ f, r.has f → ∀ kind ∈ artifactKinds, r.store.has f.key kind) ∧
      (∀ s o e, (r.generate s o).2 ≠ .error (.store e)) ∧
      (∀ f, r.active = some f → r.has f ∧ ∀ more, (r.run more).active = some f) ∧
      (∀ s o g, r.resolve o.framework = .ok g → (r.generate s o).1.store.frozen) ∧
      (r.store.frozen → ∀ more, (r.run more).store = r.store ∧
        (r.run more).generators = r.generators) := by
  intro r
  have hempty : Sound { store } :=
    { stored := fun f h => absurd h Bool.false_ne_true, active := fun f h => by cases h }
  have hsound : r.Sound := run_keeps (fun _ _ => Changes.sound) hempty steps
  refine ⟨hsound.stored, hsound.unrefused, fun f hf => ⟨hsound.active f hf, fun more => ?_⟩,
    fun s o g hg => ?_, fun hfrozen more => ?_⟩
  · exact run_keeps (P := fun r => r.active = some f) (fun _ _ h hr => h.active hr) hf more
  · rw [generate, hg]
    rfl
  · refine run_keeps (P := fun t => t.store = r.store ∧ t.generators = r.generators) ?_ ⟨rfl, rfl⟩ more
    rintro t t' h ⟨hstore, hgenerators⟩
    obtain ⟨hstore', hgenerators'⟩ := h.frozen_keeps (hstore ▸ hfrozen)
    exact ⟨hstore'.trans hstore, hgenerators'.trans hgenerators⟩

/-- A run of which the second registration fails, for want of templates, and so does the last, as
the request before it closed the store. -/
def sampleSteps : List Step := [
  .register (.ofFramework .react {}) false,
  .register (.custom .vue {} (some []) none "") false,
  .activate (.str "react"),
  .generate (.page []) {},
  .register (.ofFramework .html {}) true]

theorem run_sound_sample :
    let r := run {} sampleSteps
    (r.frameworks = [.react] ∧ r.active = some .react ∧ r.store.frozen) ∧
      (∀ kind ∈ artifactKinds, r.store.has "react" kind) ∧
      (∀ e, (r.generate (.page []) {}).2 ≠ .error (.store e)) ∧
      (run r sampleSteps).active = some .react ∧
      (r.generate (.page []) {}).1.store.frozen ∧
      (run r sampleSteps).store = r.store ∧ (run r sampleSteps).generators = r.generators := by
  intro r
  obtain ⟨hstored, hunrefused, hactive, hfreezes, hkeeps⟩ := run_sound {} sampleSteps
  have hr : r.frameworks = [.react] ∧ r.active = some .react ∧ r.store.frozen :=
    ⟨by decide +kernel, by decide +kernel, by decide +kernel⟩
  obtain ⟨g, hg⟩ : ∃ g, (r.resolve none).toOption = some g :=
    Option.isSome_iff_exists.1 (by decide +kernel)
  exact ⟨hr, hstored .react (by decide +kernel), hunrefused _ _, (hactive .react hr.2.1).2 _,
    hfreezes _ _ g (toOption_eq_some_iff.1 hg), hkeeps hr.2.2 _⟩

end Registry

end ViewWriter
