import ViewWriter.Proofs.Stylesheet.Deduplication

/-! Deduplication comes to an end, where nothing is left to merge, and leaves its results as they
are. -/

namespace ViewWriter.Stylesheet

open ViewWriter.Text

/-- Rules without repeated declarations, of which no two that could stand together have a selector
or a block in common. -/
structure IsDeduplicated (rules : List Rule) : Prop where
  once : ∀ r ∈ rules, r.declarations.Nodup
  apart : ∀ before earlier between later after,
    rules = before ++ earlier :: (between ++ later :: after) →
    (∀ r ∈ between, r.properties.Disjoint later.properties) →
    earlier.selector ≠ later.selector ∧
      (earlier.declarations ≠ [] → earlier.declarations ≠ later.declarations)

section NormalForm

lemma length_lastOfEach_lt_iff {ds : List StyleDeclaration} :
    (lastOfEach ds).length < ds.length ↔ ¬ ds.Nodup := by
  induction ds with
  | nil => simp [lastOfEach]
  | cons d rest ih =>
    rw [lastOfEach, List.nodup_cons, List.length_cons]
    split_ifs with hd
    · have hle := lastOfEach_length rest
      have hmem : d ∈ rest := List.contains_iff_mem.1 hd
      simp only [hmem, not_true_eq_false, false_and, not_false_eq_true, iff_true]
      omega
    · have hmem : d ∉ rest := fun h => hd (List.contains_iff_mem.2 h)
      simp only [hmem, not_false_eq_true, true_and, List.length_cons]
      rw [← ih]
      omega

lemma trimFirst?_eq_none_iff {rules : List Rule} :
    trimFirst? rules = none ↔ ∀ r ∈ rules, r.declarations.Nodup := by
  induction rules with
  | nil => simp [trimFirst?]
  | cons r rest ih =>
    rw [List.forall_mem_cons, ← ih]
    simp only [trimFirst?]
    split_ifs with hr
    · have hnot := length_lastOfEach_lt_iff.1 hr
      simp [hnot]
    · have hnodup : r.declarations.Nodup := not_not.1 fun h => hr (length_lastOfEach_lt_iff.2 h)
      simp [hnodup]

lemma merge?_eq_none_iff {earlier later : Rule} :
    merge? earlier later = none ↔ earlier.selector ≠ later.selector ∧
      (earlier.declarations ≠ [] → earlier.declarations ≠ later.declarations) := by
  rw [merge?]
  split_ifs with hs hd
  · simp [beq_iff_eq.1 hs]
  · simp only [Bool.and_eq_true, Bool.not_eq_true', List.isEmpty_eq_false_iff, beq_iff_eq] at hd
    have hne : later.declarations ≠ [] := hd.2 ▸ hd.1
    simp [hd.2, hne]
  · simp only [Bool.and_eq_true, Bool.not_eq_true', List.isEmpty_eq_false_iff, beq_iff_eq,
      not_and] at hs hd
    simpa [hs] using hd

lemma sharesProperty_eq_false_iff {a b : Rule} :
    sharesProperty a b = false ↔ a.properties.Disjoint b.properties := by
  simp [sharesProperty, List.Disjoint]

lemma mergeInto?_eq_none_iff {earlier : Rule} {between rules : List Rule} :
    mergeInto? earlier between rules = none ↔ ∀ passed later after, rules = passed ++ later :: after →
      (∀ r ∈ between.reverse ++ passed, sharesProperty r later = false) →
        merge? earlier later = none := by
  induction rules generalizing between with
  | nil => simp [mergeInto?]
  | cons r rest ih =>
    rw [mergeInto?]
    constructor
    · intro h passed later after hrules hpassed
      split at h
      · cases h
      · rename_i hhere
        cases passed with
        | nil =>
          obtain ⟨rfl, rfl⟩ := List.cons.inj hrules
          have hfree : ¬ between.any (sharesProperty · r) = true := by
            simpa using hpassed
          rwa [if_neg hfree] at hhere
        | cons p passed =>
          obtain ⟨rfl, hrest⟩ := List.cons.inj hrules
          refine ih.1 h passed later after hrest ?_
          simpa using hpassed
    · intro h
      have hrest : mergeInto? earlier (r :: between) rest = none := by
        refine ih.2 fun passed later after hrules hpassed => ?_
        apply h (r :: passed) later after (by rw [hrules]; rfl)
        simpa using hpassed
      have hhere : (if between.any (sharesProperty · r) then none else merge? earlier r) = none := by
        split_ifs with hb
        · rfl
        · apply h [] r rest rfl
          simpa using hb
      rw [hhere]
      exact hrest

lemma mergeFirst?_eq_none_iff {rules : List Rule} :
    mergeFirst? rules = none ↔ ∀ before earlier between later after,
      rules = before ++ earlier :: (between ++ later :: after) →
      (∀ r ∈ between, sharesProperty r later = false) → merge? earlier later = none := by
  induction rules with
  | nil => simp [mergeFirst?]
  | cons r rest ih =>
    rw [mergeFirst?]
    constructor
    · intro h before earlier between later after hrules hbetween
      split at h
      · cases h
      · rename_i hhere
        cases before with
        | nil =>
          obtain ⟨rfl, hrest⟩ := List.cons.inj hrules
          exact mergeInto?_eq_none_iff.1 hhere between later after hrest (by simpa using hbetween)
        | cons b before =>
          obtain ⟨rfl, hrest⟩ := List.cons.inj hrules
          exact ih.1 (Option.map_eq_none_iff.1 h) before earlier between later after hrest hbetween
    · intro h
      have hhere : mergeInto? r [] rest = none := by
        refine mergeInto?_eq_none_iff.2 fun passed later after hrules hpassed => ?_
        apply h [] r passed later after (by rw [hrules]; rfl)
        simpa using hpassed
      have hrest : mergeFirst? rest = none := by
        refine ih.2 fun before earlier between later after hrules hbetween => ?_
        exact h (r :: before) earlier between later after (by rw [hrules]; rfl) hbetween
      rw [hhere, hrest]
      rfl

/-- Where there is no step to take, and only there, nothing is left to merge. -/
lemma step?_eq_none_iff {rules : List Rule} : step? rules = none ↔ IsDeduplicated rules := by
  have hsplit : step? rules = none ↔ trimFirst? rules = none ∧ mergeFirst? rules = none := by
    rw [step?]
    cases trimFirst? rules <;> simp
  rw [hsplit, trimFirst?_eq_none_iff, mergeFirst?_eq_none_iff]
  simp only [sharesProperty_eq_false_iff, merge?_eq_none_iff]
  exact ⟨fun h => ⟨h.1, h.2⟩, fun h => ⟨h.once, h.apart⟩⟩

end NormalForm

section Steps

/-- Every step makes the stylesheet smaller, so that there are no more of them than rules and
declarations. -/
lemma Steps.size_le {n : Nat} {rules last : List Rule} (hs : Steps n rules last) :
    size last + n ≤ size rules := by
  induction hs with
  | refl rules => exact Nat.le_refl _
  | head h _ ih =>
    have hlt := step?_size h
    omega

/-- What an accepted stylesheet comes to by merging is read again as it is written. -/
lemma parse?_write_steps {css : String} {rules next : List Rule} {n : Nat}
    (h : parse? css = some rules) (hs : Steps n rules next) (width : Int) :
    parse? (write (String.ofList (spaces width)) next) = some next := by
  have hblank : ∀ c ∈ (String.ofList (spaces width)).toList, isBlank c = true := by
    intro c hc
    rw [String.toList_ofList] at hc
    rw [List.eq_of_mem_replicate hc, isBlank_space]
  exact parse?_write hblank ((isReadSheet_of_parse? h).steps hs)

end Steps

section Result

variable {config : Config} {css out : String}

lemma styles_of_parse?_none (h : parse? css = none) : Optimize.styles config css = .ok css := by
  simp only [Optimize.styles, h]

lemma exists_styles {unit : String} (hunit : config.indentUnit = .ok unit) :
    ∃ out, Optimize.styles config css = .ok out := by
  cases h : parse? css with
  | none => exact ⟨css, styles_of_parse?_none h⟩
  | some rules =>
    rw [styles_eq h, hunit]
    split_ifs
    · exact ⟨css, rfl⟩
    · exact ⟨_, rfl⟩

lemma styles_again (h : Optimize.styles config css = .ok out) :
    Optimize.styles config out = .ok out := by
  cases hrules : parse? css with
  | none =>
    rw [styles_of_parse?_none hrules] at h
    obtain rfl := Except.ok.inj h
    exact styles_of_parse?_none hrules
  | some rules =>
    rw [styles_eq (parse?_styles hrules h), step?_merged]
    rfl

lemma isDeduplicated_styles {rules : List Rule} (h : Optimize.styles config css = .ok out)
    (hout : parse? out = some rules) : IsDeduplicated rules := by
  apply step?_eq_none_iff.1
  cases hcss : parse? css with
  | none =>
    rw [styles_of_parse?_none hcss] at h
    obtain rfl := Except.ok.inj h
    rw [hcss] at hout
    cases hout
  | some before =>
    rw [parse?_styles hcss h] at hout
    obtain rfl := Option.some.inj hout
    exact step?_merged before

end Result

/-- Merging ends, and what it comes to on the way is read again as it is written. So a deduplicated
stylesheet stays as it is, and nothing is left in it to merge. -/
theorem deduplication_settles (config : Config) (css : String) :
    (∀ rules, parse? css = some rules →
      (∃ n, Steps n rules (merged rules)) ∧ step? (merged rules) = none ∧
      ∀ n next, Steps n rules next → n ≤ size rules ∧
        ∀ width : Int, parse? (write (String.ofList (spaces width)) next) = some next) ∧
    (∀ unit, config.indentUnit = .ok unit → ∃ out, Optimize.styles config css = .ok out) ∧
    ∀ out, Optimize.styles config css = .ok out →
      Optimize.styles config out = .ok out ∧
        ∀ rules, parse? out = some rules → IsDeduplicated rules := by
  refine ⟨fun rules hrules => ?_, fun unit hunit => exists_styles hunit, fun out hout => ?_⟩
  · refine ⟨exists_steps_merged rules, step?_merged rules, fun n next hs => ⟨?_, ?_⟩⟩
    · have hsize := hs.size_le
      omega
    · exact parse?_write_steps hrules hs
  · exact ⟨styles_again hout, fun rules hrules => isDeduplicated_styles hout hrules⟩

/-- A declaration that stands twice, and two rules with one block. -/
theorem deduplication_settles_three :
    let css := ".a\x7bb:c;b:c\x7d.d\x7bb:c\x7d.a\x7be:f\x7d"
    let out := ".a, .d \x7b\n  b: c;\n\x7d\n\n.a \x7b\n  e: f;\n\x7d\n"
    let rules := [⟨".a", [("b", "c"), ("b", "c")]⟩, ⟨".d", [("b", "c")]⟩, ⟨".a", [("e", "f")]⟩]
    parse? css = some rules ∧
      (∀ width : Int, parse? (write (String.ofList (spaces width)) (merged rules)) =
        some (merged rules)) ∧
      Optimize.styles {} css = .ok out ∧ Optimize.styles {} out = .ok out ∧
      ∃ kept, parse? out = some kept ∧ IsDeduplicated kept := by
  intro css out rules
  have hrules : parse? css = some rules := by decide +kernel
  have hout : Optimize.styles {} css = .ok out := by decide +kernel
  obtain ⟨hmerging, -, hsettled⟩ := deduplication_settles {} css
  obtain ⟨⟨n, hs⟩, -, hwritten⟩ := hmerging rules hrules
  obtain ⟨hagain, hkept⟩ := hsettled out hout
  have hread := parse?_styles hrules hout
  exact ⟨hrules, (hwritten n _ hs).2, hout, hagain, _, hread, hkept _ hread⟩

end ViewWriter.Stylesheet
