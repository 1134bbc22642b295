import Mathlib.Tactic.Lemma
import Mathlib.Tactic.SplitIfs
import ViewWriter.Stylesheet.Merge

/-! What one step of merging does to a list of rules, and what many steps keep. -/

namespace ViewWriter.Stylesheet

lemma trimFirst?_cases {rules next : List Rule} (h : trimFirst? rules = some next) :
    ∃ before r after, rules = before ++ r :: after ∧
      next = before ++ ⟨r.selector, lastOfEach r.declarations⟩ :: after := by
  induction rules generalizing next with
  | nil => simp [trimFirst?] at h
  | cons r rest ih =>
    simp only [trimFirst?] at h
    split_ifs at h
    · obtain rfl := Option.some.inj h
      exact ⟨[], r, rest, rfl, rfl⟩
    · obtain ⟨more, hmore, rfl⟩ := Option.map_eq_some_iff.1 h
      obtain ⟨before, s, after, rfl, rfl⟩ := ih hmore
      exact ⟨r :: before, s, after, rfl, rfl⟩

lemma merge?_cases {earlier later merged : Rule} (h : merge? earlier later = some merged) :
    (earlier.selector = later.selector ∧
      merged = ⟨earlier.selector, lastOfEach (earlier.declarations ++ later.declarations)⟩) ∨
    (earlier.declarations = later.declarations ∧
      merged = ⟨earlier.selector ++ ", " ++ later.selector, earlier.declarations⟩) := by
  unfold merge? at h
  split_ifs at h with hs hd
  · exact .inl ⟨beq_iff_eq.1 hs, (Option.some.inj h).symm⟩
  · simp only [Bool.and_eq_true, beq_iff_eq] at hd
    exact .inr ⟨hd.2, (Option.some.inj h).symm⟩

lemma mergeInto?_cases {earlier : Rule} {between rules next : List Rule}
    (h : mergeInto? earlier between rules = some next) :
    ∃ passed later after merged, rules = passed ++ later :: after ∧
      next = merged :: (between.reverse ++ passed ++ after) ∧
      (∀ r ∈ between.reverse ++ passed, sharesProperty r later = false) ∧
      merge? earlier later = some merged := by
  induction rules generalizing between with
  | nil => simp [mergeInto?] at h
  | cons r rest ih =>
    rw [mergeInto?] at h
    split at h
    · rename_i merged hm
      obtain rfl := Option.some.inj h
      split_ifs at hm with hb
      refine ⟨[], r, rest, merged, rfl, by simp, ?_, hm⟩
      intro s hs
      rw [List.append_nil] at hs
      have hnot := List.any_eq_false.1 (Bool.not_eq_true _ ▸ hb) s (List.mem_reverse.1 hs)
      exact Bool.not_eq_true _ ▸ hnot
    · obtain ⟨passed, later, after, merged, rfl, rfl, hpassed, hm⟩ := ih h
      exact ⟨r :: passed, later, after, merged, rfl, by simp, by simpa using hpassed, hm⟩

/-- A rule is merged into an earlier one over rules that set none of its properties. -/
lemma mergeFirst?_cases {rules next : List Rule} (h : mergeFirst? rules = some next) :
    ∃ before earlier between later after merged,
      rules = before ++ earlier :: (between ++ later :: after) ∧
      next = before ++ merged :: (between ++ after) ∧
      (∀ r ∈ between, sharesProperty r later = false) ∧ merge? earlier later = some merged := by
  induction rules generalizing next with
  | nil => simp [mergeFirst?] at h
  | cons r rest ih =>
    rw [mergeFirst?] at h
    split at h
    · rename_i rules hm
      obtain rfl := Option.some.inj h
      obtain ⟨passed, later, after, merged, rfl, rfl, hpassed, hm⟩ := mergeInto?_cases hm
      exact ⟨[], r, passed, later, after, merged, rfl, by simp, by simpa using hpassed, hm⟩
    · obtain ⟨more, hmore, rfl⟩ := Option.map_eq_some_iff.1 h
      obtain ⟨before, earlier, between, later, after, merged, rfl, rfl, hb, hm⟩ := ih hmore
      exact ⟨r :: before, earlier, between, later, after, merged, rfl, rfl, hb, hm⟩

/-- A number of steps. -/
inductive Steps : Nat → List Rule → List Rule → Prop
  | refl (rules : List Rule) : Steps 0 rules rules
  | head {n : Nat} {rules next last : List Rule} (h : step? rules = some next)
      (hs : Steps n next last) : Steps (n + 1) rules last

/-- What holds at first and is kept by every step of a run holds at its end. -/
lemma Steps.keeps {P : List Rule → Prop} {n : Nat} {rules last : List Rule}
    (hs : Steps n rules last)
    (hP : ∀ m mid next, Steps m rules mid → step? mid = some next → P mid → P next)
    (h : P rules) : P last := by
  induction hs with
  | refl rules => exact h
  | @head n rules next last hstep _ ih =>
    apply ih
    · intro m mid next hm
      exact hP (m + 1) mid next (.head hstep hm)
    · exact hP 0 rules next (.refl rules) hstep h

lemma exists_steps_merged (rules : List Rule) : ∃ n, Steps n rules (merged rules) := by
  fun_induction merged rules with
  | case1 rules next hstep ih =>
    obtain ⟨n, hs⟩ := ih
    exact ⟨n + 1, .head hstep hs⟩
  | case2 rules hstep => exact ⟨0, .refl rules⟩

section Induction

variable {P : List Rule → Prop}
  (trim : ∀ before r after, P (before ++ r :: after) →
    P (before ++ ⟨r.selector, lastOfEach r.declarations⟩ :: after))
  (merge : ∀ before earlier between later after merged,
    (∀ r ∈ between, sharesProperty r later = false) → merge? earlier later = some merged →
    P (before ++ earlier :: (between ++ later :: after)) →
    P (before ++ merged :: (between ++ after)))

include trim merge

lemma step?_induction {rules next : List Rule} (hstep : step? rules = some next) (h : P rules) :
    P next := by
  unfold step? at hstep
  split at hstep
  · rename_i trimmed htrim
    obtain rfl := Option.some.inj hstep
    obtain ⟨before, r, after, rfl, rfl⟩ := trimFirst?_cases htrim
    exact trim before r after h
  · obtain ⟨before, earlier, between, later, after, merged, rfl, rfl, hb, hm⟩ :=
      mergeFirst?_cases hstep
    exact merge before earlier between later after merged hb hm h

lemma merged_induction {rules : List Rule} (h : P rules) : P (merged rules) := by
  obtain ⟨n, hs⟩ := exists_steps_merged rules
  exact hs.keeps (fun _ _ _ _ hstep => step?_induction trim merge hstep) h

end Induction

lemma mem_of_mem_lastOfEach {d : StyleDeclaration} {ds : List StyleDeclaration}
    (h : d ∈ lastOfEach ds) : d ∈ ds := by
  induction ds with
  | nil => simp [lastOfEach] at h
  | cons e rest ih =>
    rw [lastOfEach] at h
    split_ifs at h
    · exact List.mem_cons_of_mem _ (ih h)
    · rcases List.mem_cons.1 h with rfl | h
      · exact List.mem_cons_self
      · exact List.mem_cons_of_mem _ (ih h)

end ViewWriter.Stylesheet
