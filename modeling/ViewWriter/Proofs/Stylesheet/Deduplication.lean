import ViewWriter.Optimize
import ViewWriter.Proofs.Stylesheet.Cascade
import ViewWriter.Proofs.Stylesheet.RoundTrip
import ViewWriter.Proofs.Stylesheet.Step

/-! Dropping repeated declarations and merging rules leave the strongest candidate of every
property as it is. -/

namespace ViewWriter.Stylesheet

open ViewWriter.Text

section Pieces

lemma selectorPieces_ne_nil (cs : List Char) : selectorPieces cs ≠ [] := by
  fun_cases selectorPieces cs <;> simp_all

lemma selectorPieces_cons {c : Char} {rest piece : List Char} {pieces : List (List Char)}
    (hc : ¬ (c = ',' ∧ rest.head? = some ' ')) (h : selectorPieces rest = piece :: pieces) :
    selectorPieces (c :: rest) = (c :: piece) :: pieces := by
  rw [selectorPieces.eq_def]
  split
  · contradiction
  · rename_i heq
    simp_all
  · rename_i heq
    simp only [List.cons.injEq] at heq
    obtain ⟨rfl, rfl⟩ := heq
    simp [h]

lemma selectorPieces_append (cs ds : List Char) :
    selectorPieces (cs ++ ',' :: ' ' :: ds) = selectorPieces cs ++ selectorPieces ds := by
  fun_induction selectorPieces cs with
  | case1 => simp [selectorPieces]
  | case2 rest ih => simp [selectorPieces, ih]
  | case3 c rest hc h ih => exact absurd h (selectorPieces_ne_nil rest)
  | case4 c rest hc piece pieces h ih =>
    rw [h, List.cons_append] at ih
    rw [List.cons_append, selectorPieces_cons _ ih, List.cons_append]
    rintro ⟨rfl, hrest⟩
    cases rest with
    | nil => simp at hrest
    | cons d rest =>
      simp only [List.cons_append, List.head?_cons, Option.some.injEq] at hrest
      exact hc rest rfl (by rw [hrest])

end Pieces

namespace Cascade

variable {σ π : Type*} (c : Cascade σ π) (property : String)

lemma candidates_append (w : σ) (ds es : List StyleDeclaration) :
    c.candidates property w (ds ++ es) =
      c.candidates property w ds ++ c.candidates property w es := by
  simp [candidates]

variable [LinearOrder σ]

lemma weight?_group (s t : String) :
    c.weight? (s ++ ", " ++ t) = Option.merge max (c.weight? s) (c.weight? t) := by
  have h : (s ++ ", " ++ t).toList = s.toList ++ ',' :: ' ' :: t.toList := by simp
  simp only [weight?, matchedPieces, h, selectorPieces_append, List.map_append, List.filter_append,
    combined_append]

lemma ruleCandidates_eq_nil {r : Rule} (h : property ∉ r.properties) :
    c.ruleCandidates property r = [] := by
  rw [ruleCandidates]
  cases c.weight? r.selector with
  | none => rfl
  | some w =>
    refine List.map_eq_nil_iff.2 (List.filter_eq_nil_iff.2 ?_)
    intro d hd hp
    simp only [Bool.and_eq_true, beq_iff_eq] at hp
    exact h (List.mem_map.2 ⟨d, hd, hp.1⟩)

variable [LinearOrder π]

lemma combined_lastOfEach (w : σ) (ds : List StyleDeclaration) :
    combined later (c.candidates property w (lastOfEach ds)) =
      combined later (c.candidates property w ds) := by
  induction ds with
  | nil => rfl
  | cons d rest ih =>
    have happend : ∀ es, c.candidates property w (d :: es) =
        c.candidates property w [d] ++ c.candidates property w es :=
      fun es => c.candidates_append property w [d] es
    rw [lastOfEach]
    split_ifs with hd
    · -- the declaration comes again, and its later copy hides it
      rw [happend rest, combined_append, ih]
      by_cases hp : d.1 == property && c.understood d
      · have hmem : (toLex (c.priority d, w), d) ∈ c.candidates property w rest :=
          List.mem_map.2 ⟨d, List.mem_filter.2 ⟨List.contains_iff_mem.1 hd, hp⟩, rfl⟩
        simpa [candidates, hp, combined] using (merge_combined_of_mem hmem).symm
      · simp [candidates, hp, combined]
    · rw [happend rest, happend (lastOfEach rest), combined_append, combined_append, ih]

def weigh (w : σ) (k : π × StyleDeclaration) : (π ×ₗ σ) × StyleDeclaration :=
  (toLex (k.1, w), k.2)

lemma later_weigh (w : σ) (a b : π × StyleDeclaration) :
    later (weigh w a) (weigh w b) = weigh w (later a b) := by
  unfold later
  rcases lt_trichotomy a.1 b.1 with h | h | h
  · simp [weigh, Prod.Lex.toLex_le_toLex, h, h.le]
  · simp [weigh, h]
  · simp [weigh, Prod.Lex.toLex_le_toLex, h.not_gt, h.not_ge, h.ne']

lemma later_max (v w : σ) (k : π × StyleDeclaration) :
    later (weigh v k) (weigh w k) = weigh (max v w) k := by
  rcases le_or_gt v w with h | h
  · simp [later, weigh, Prod.Lex.toLex_le_toLex, h]
  · simp [later, weigh, Prod.Lex.toLex_le_toLex, h.le, h.not_ge]

lemma combined_max (v w : σ) (ds : List StyleDeclaration) :
    combined later (c.candidates property (max v w) ds) =
      Option.merge later (combined later (c.candidates property v ds))
        (combined later (c.candidates property w ds)) := by
  let known := (ds.filter fun d => d.1 == property && c.understood d).map fun d =>
    (c.priority d, d)
  have hweigh : ∀ u, combined later (c.candidates property u ds) =
      (combined later known).map (weigh u) := by
    intro u
    rw [← combined_map (weigh u) (later_weigh u), List.map_map]
    rfl
  rw [hweigh, hweigh, hweigh]
  cases combined later known with
  | none => rfl
  | some k => simp [later_max]

lemma strongest_rule (selector : String) (ds : List StyleDeclaration) :
    c.strongest property [⟨selector, ds⟩] =
      (c.weight? selector).bind fun w => combined later (c.candidates property w ds) := by
  rw [strongest, List.flatMap_singleton, ruleCandidates]
  cases c.weight? selector <;> rfl

lemma strongest_cons (r : Rule) (rest : List Rule) :
    c.strongest property (r :: rest) =
      Option.merge later (c.strongest property [r]) (c.strongest property rest) :=
  c.strongest_append property [r] rest

lemma strongest_eq_none {rules : List Rule} (h : ∀ r ∈ rules, property ∉ r.properties) :
    c.strongest property rules = none := by
  rw [strongest, combined_eq_none_iff, List.flatMap_eq_nil_iff]
  exact fun r hr => c.ruleCandidates_eq_nil property (h r hr)

lemma strongest_lastOfEach (selector : String) (ds : List StyleDeclaration) :
    c.strongest property [⟨selector, lastOfEach ds⟩] = c.strongest property [⟨selector, ds⟩] := by
  simp only [strongest_rule, combined_lastOfEach]

lemma strongest_merge? {earlier later merged : Rule} (h : merge? earlier later = some merged) :
    c.strongest property [merged] = c.strongest property [earlier, later] := by
  obtain ⟨s, ds⟩ := earlier
  obtain ⟨t, es⟩ := later
  rw [c.strongest_cons property ⟨s, ds⟩ [⟨t, es⟩], strongest_rule, strongest_rule]
  rcases merge?_cases h with ⟨hs, rfl⟩ | ⟨hd, rfl⟩
  · obtain rfl : s = t := hs
    rw [strongest_rule]
    cases c.weight? s with
    | none => rfl
    | some w => simp [combined_lastOfEach, candidates_append, combined_append]
  · obtain rfl : ds = es := hd
    rw [strongest_rule, weight?_group]
    cases c.weight? s with
    | none => simp
    | some v =>
      cases c.weight? t with
      | none => simp
      | some w => simp [combined_max]

/-- A rule moves up over rules that set none of its properties. -/
lemma strongest_hoist {earlier later merged : Rule} {between : List Rule} (after : List Rule)
    (hb : ∀ r ∈ between, sharesProperty r later = false) (h : merge? earlier later = some merged) :
    c.strongest property (merged :: (between ++ after)) =
      c.strongest property (earlier :: (between ++ later :: after)) := by
  rw [c.strongest_cons property merged, c.strongest_cons property earlier,
    c.strongest_merge? property h, c.strongest_cons property earlier [later], strongest_append,
    strongest_append, c.strongest_cons property later after, merge_assoc]
  by_cases hp : property ∈ later.properties
  · have hnone : c.strongest property between = none := by
      refine c.strongest_eq_none property ?_
      intro r hr hpr
      refine Bool.eq_false_iff.1 (hb r hr) (List.any_eq_true.2 ⟨property, hpr, ?_⟩)
      exact List.contains_iff_mem.2 hp
    rw [hnone, Option.merge_none_left, Option.merge_none_left]
  · have hnone : c.strongest property [later] = none := by
      refine c.strongest_eq_none property ?_
      intro r hr
      rwa [List.mem_singleton.1 hr]
    rw [hnone, Option.merge_none_left, Option.merge_none_left]

lemma strongest_merged (rules : List Rule) :
    c.strongest property (merged rules) = c.strongest property rules := by
  refine merged_induction (P := fun next => c.strongest property next = c.strongest property rules)
    ?_ ?_ rfl
  · intro before r after ih
    rw [← ih, strongest_append, strongest_append, strongest_cons, strongest_lastOfEach,
      ← strongest_cons]
  · intro before earlier between later after merged hb hm ih
    rw [← ih, strongest_append, strongest_append, c.strongest_hoist property after hb hm]

end Cascade

end ViewWriter.Stylesheet

/-! A deduplicated stylesheet is read as the merged rules, and an element takes from it what it
took before. -/

namespace ViewWriter.Stylesheet

open ViewWriter.Text

lemma isBlank_of_indentUnit {config : Config} {unit : String} (h : config.indentUnit = .ok unit) :
    ∀ c ∈ unit.toList, isBlank c = true := by
  intro c hc
  rw [Config.eq_space_of_indentUnit h c hc, isBlank_space]

lemma merged_of_step? {rules : List Rule} (h : step? rules = none) : merged rules = rules := by
  rw [merged]
  split <;> simp_all

lemma styles_eq {config : Config} {css : String} {rules : List Rule} (h : parse? css = some rules) :
    Optimize.styles config css =
      if (step? rules).isNone then .ok css
      else config.indentUnit.map fun unit => write unit (merged rules) := by
  simp only [Optimize.styles, h]
  split
  · rfl
  · cases config.indentUnit <;> rfl

lemma parse?_styles {config : Config} {css out : String} {rules : List Rule}
    (h : parse? css = some rules) (hout : Optimize.styles config css = .ok out) :
    parse? out = some (merged rules) := by
  rw [styles_eq h] at hout
  split at hout
  · rename_i hstep
    cases hout
    rw [h, merged_of_step? (Option.isNone_iff_eq_none.1 hstep)]
  · cases hunit : config.indentUnit with
    | error e =>
      rw [hunit] at hout
      cases hout
    | ok unit =>
      rw [hunit] at hout
      cases hout
      exact parse?_write (isBlank_of_indentUnit hunit) (isReadSheet_of_parse? h).merged

/-- Deduplication gives a stylesheet, and in it every element takes for every property the
declaration that it took before. -/
theorem deduplication_preserves_cascade {σ π : Type*} [LinearOrder σ] [LinearOrder π]
    {config : Config} {css : String} {rules : List Rule} (h : parse? css = some rules) :
    (∀ unit, config.indentUnit = .ok unit → ∃ out, Optimize.styles config css = .ok out) ∧
      ∀ out, Optimize.styles config css = .ok out →
        ∃ kept, parse? out = some kept ∧
          ∀ (c : Cascade σ π) (property : String) (d : StyleDeclaration),
            c.Decides property kept d ↔ c.Decides property rules d := by
  refine ⟨?_, ?_⟩
  · intro unit hunit
    rw [styles_eq h, hunit]
    split
    · exact ⟨_, rfl⟩
    · exact ⟨_, rfl⟩
  · intro out hout
    refine ⟨merged rules, parse?_styles h hout, ?_⟩
    intro c property d
    rw [c.decides_iff_strongest, c.decides_iff_strongest, c.strongest_merged]

lemma parse?_repeated :
    parse? "a\x7bb:c;b:c\x7d" = some [⟨"a", [("b", "c"), ("b", "c")]⟩] := by
  have hblock : rules? (['a'] ++ '\x7b' :: (['b', ':', 'c', ';', 'b', ':', 'c'] ++ ['\x7d'])) = _ :=
    rules?_block [] (by simp [isBrace]) (by simp) (by simp [isBrace])
  have hbody : declarations? ['b', ':', 'c', ';', 'b', ':', 'c'] =
      some [("b", "c"), ("b", "c")] := rfl
  have hend : ([] : List Char).dropWhile isBlank = [] := rfl
  rw [hbody, hend, rules?_nil] at hblock
  exact hblock

/-- An element that every selector matches, in a browser that knows every declaration. -/
def Cascade.plain : Cascade ℕ ℕ := ⟨fun _ => true, fun _ => 0, fun _ => 0, fun _ => true⟩

theorem deduplication_preserves_cascade_repeated :
    parse? "a\x7bb:c;b:c\x7d" = some [⟨"a", [("b", "c"), ("b", "c")]⟩] ∧
      ∃ out kept, Optimize.styles {} "a\x7bb:c;b:c\x7d" = .ok out ∧ parse? out = some kept ∧
        Cascade.plain.Decides "b" kept ("b", "c") := by
  refine ⟨parse?_repeated, ?_⟩
  obtain ⟨hgives, hkeeps⟩ := @deduplication_preserves_cascade ℕ ℕ _ _ {} _ _ parse?_repeated
  obtain ⟨out, hout⟩ := hgives "  " rfl
  obtain ⟨kept, hkept, hdecides⟩ := hkeeps out hout
  refine ⟨out, kept, hout, hkept, (hdecides Cascade.plain "b" ("b", "c")).2 ?_⟩
  exact ⟨[(toLex (0, 0), ("b", "c"))], toLex (0, 0), [], rfl, by simp, by simp⟩

end ViewWriter.Stylesheet
