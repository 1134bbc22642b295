import ViewWriter.Proofs.Stylesheet.Fixpoint

/-! Longhand properties after their shorthands. Merging moves a rule up over rules that set none of
its properties by name, so that a longhand can come to stand before its shorthand. -/

namespace ViewWriter.Stylesheet

/-- Whether a selector is for an element that matches some pieces of selectors. -/
def appliesTo (matched : String → Bool) (selector : String) : Bool :=
  ((selectorPieces selector.toList).map String.ofList).any matched

/-- The properties that rules give to an element, in their order. -/
def applied (matched : String → Bool) (rules : List Rule) : List String :=
  rules.flatMap fun r => if appliesTo matched r.selector then r.properties else []

/-- The last of the longhand properties comes after all of the shorthand. -/
def LonghandLast (short long : String) (properties : List String) : Prop :=
  ∃ before after, properties = before ++ long :: after ∧ long ∉ after ∧ short ∉ after

/-- A merge of two rules by which a longhand that applies to an element, with nothing of the kind
after it, is moved up over its shorthand. -/
inductive Overtakes (matched : String → Bool) (short long : String) : List Rule → List Rule → Prop
  | intro (before : List Rule) (earlier : Rule) (between : List Rule) (later : Rule)
      (after : List Rule) (merged : Rule) (hm : merge? earlier later = some merged)
      (hbetween : ∀ r ∈ between, r.properties.Disjoint later.properties)
      (hlong : long ∈ applied matched [later]) (hshort : short ∈ applied matched between)
      (hafter : long ∉ applied matched after ∧ short ∉ applied matched after) :
      Overtakes matched short long (before ++ earlier :: (between ++ later :: after))
        (before ++ merged :: (between ++ after))

/-- Wherever two rules set the shorthand and the longhand, some property is in both of them. -/
def AreTouching (short long : String) (rules : List Rule) : Prop :=
  ∀ a ∈ rules, ∀ b ∈ rules, short ∈ a.properties → long ∈ b.properties →
    ¬ a.properties.Disjoint b.properties

section Last

variable {short long : String} {ps qs : List String}

/-- The last property that is the shorthand or the longhand. -/
def lastOfBoth (short long : String) (ps : List String) : Option String :=
  (ps.filter fun p => p == short || p == long).getLast?

lemma lastOfBoth_append : lastOfBoth short long (ps ++ qs) =
    (lastOfBoth short long qs).or (lastOfBoth short long ps) := by
  rw [lastOfBoth, List.filter_append, List.getLast?_append]
  rfl

lemma lastOfBoth_eq_none_iff : lastOfBoth short long ps = none ↔ long ∉ ps ∧ short ∉ ps := by
  rw [lastOfBoth, List.getLast?_eq_none_iff, List.filter_eq_nil_iff]
  constructor
  · intro h
    exact ⟨fun hp => h long hp (by simp), fun hp => h short hp (by simp)⟩
  · rintro ⟨hlong, hshort⟩ p hp hboth
    simp only [Bool.or_eq_true, beq_iff_eq] at hboth
    rcases hboth with rfl | rfl
    · exact hshort hp
    · exact hlong hp

lemma mem_of_lastOfBoth {p : String} (h : lastOfBoth short long ps = some p) :
    p ∈ ps ∧ (p = short ∨ p = long) := by
  have hmem := List.mem_filter.1 (List.mem_of_getLast? h)
  simpa using hmem

lemma longhandLast_iff : LonghandLast short long ps ↔ lastOfBoth short long ps = some long := by
  constructor
  · rintro ⟨before, after, rfl, hlong, hshort⟩
    have hafter : lastOfBoth short long after = none :=
      lastOfBoth_eq_none_iff.2 ⟨hlong, hshort⟩
    have hcons : before ++ long :: after = before ++ ([long] ++ after) := rfl
    rw [hcons, lastOfBoth_append, lastOfBoth_append, hafter]
    simp [lastOfBoth]
  · intro h
    induction ps with
    | nil => cases h
    | cons p rest ih =>
      have hcons : p :: rest = [p] ++ rest := rfl
      rw [hcons, lastOfBoth_append] at h
      cases hrest : lastOfBoth short long rest with
      | none =>
        rw [hrest, Option.none_or] at h
        obtain rfl : long = p := by simpa using (mem_of_lastOfBoth h).1
        have hafter := lastOfBoth_eq_none_iff.1 hrest
        exact ⟨[], rest, rfl, hafter.1, hafter.2⟩
      | some q =>
        rw [hrest, Option.some_or] at h
        obtain ⟨before, after, rfl, hafter⟩ := ih (hrest.trans h)
        exact ⟨p :: before, after, rfl, hafter⟩

end Last

section Merging

variable {matched : String → Bool} {short long : String} {before between after rules next : List Rule}
  {earlier later merged : Rule}

lemma applied_append (rules more : List Rule) :
    applied matched (rules ++ more) = applied matched rules ++ applied matched more :=
  List.flatMap_append

lemma applied_cons (r : Rule) (rest : List Rule) :
    applied matched (r :: rest) = applied matched [r] ++ applied matched rest :=
  applied_append [r] rest

lemma mem_applied {p : String} (h : p ∈ applied matched rules) : ∃ r ∈ rules, p ∈ r.properties := by
  obtain ⟨r, hr, hp⟩ := List.mem_flatMap.1 h
  split_ifs at hp
  · exact ⟨r, hr, hp⟩
  · cases hp

lemma lastOfBoth_lastOfEach (ds : List StyleDeclaration) :
    lastOfBoth short long ((lastOfEach ds).map (·.1)) = lastOfBoth short long (ds.map (·.1)) := by
  induction ds with
  | nil => rfl
  | cons d rest ih =>
    have hcons : ∀ es : List StyleDeclaration,
        (d :: es).map (·.1) = [d.1] ++ es.map (·.1) := fun es => rfl
    rw [lastOfEach]
    split_ifs with hd
    · -- the property of the dropped declaration comes again
      rw [ih, hcons, lastOfBoth_append]
      cases hrest : lastOfBoth short long (rest.map (·.1)) with
      | some p => rfl
      | none =>
        have hmem : d.1 ∈ rest.map (·.1) := List.mem_map_of_mem (List.contains_iff_mem.1 hd)
        have hnot := lastOfBoth_eq_none_iff.1 hrest
        symm
        rw [Option.none_or, lastOfBoth_eq_none_iff, List.mem_singleton, List.mem_singleton]
        constructor
        · rintro rfl
          exact hnot.1 hmem
        · rintro rfl
          exact hnot.2 hmem
    · rw [hcons, hcons, lastOfBoth_append, lastOfBoth_append, ih]

lemma appliesTo_group (s t : String) :
    appliesTo matched (s ++ ", " ++ t) = (appliesTo matched s || appliesTo matched t) := by
  have htext : (s ++ ", " ++ t).toList = s.toList ++ ',' :: ' ' :: t.toList := by simp
  simp only [appliesTo, htext, selectorPieces_append, List.map_append, List.any_append]

lemma applied_singleton (r : Rule) :
    applied matched [r] = if appliesTo matched r.selector then r.properties else [] :=
  List.append_nil _

/-- What two rules come to when they are merged is what they come to one after the other. -/
lemma lastOfBoth_merge? (hm : merge? earlier later = some merged) :
    lastOfBoth short long (applied matched [merged]) =
      lastOfBoth short long (applied matched [earlier, later]) := by
  obtain ⟨s, ds⟩ := earlier
  obtain ⟨t, es⟩ := later
  rw [applied_cons ⟨s, ds⟩ [⟨t, es⟩], applied_singleton, applied_singleton, applied_singleton]
  rcases merge?_cases hm with ⟨hs, rfl⟩ | ⟨hd, rfl⟩
  · obtain rfl : s = t := hs
    dsimp only
    split_ifs
    · rw [Rule.properties, lastOfBoth_lastOfEach, List.map_append]
      rfl
    · rfl
  · obtain rfl : ds = es := hd
    dsimp only
    rw [appliesTo_group s t]
    cases appliesTo matched s <;> cases appliesTo matched t <;>
      simp [Rule.properties, lastOfBoth_append]

lemma lastOfBoth_rules : lastOfBoth short long
      (applied matched (before ++ earlier :: (between ++ later :: after))) =
    (lastOfBoth short long (applied matched after)).or
      ((lastOfBoth short long (applied matched [later])).or
        ((lastOfBoth short long (applied matched between)).or
          ((lastOfBoth short long (applied matched [earlier])).or
            (lastOfBoth short long (applied matched before))))) := by
  rw [applied_append, applied_cons earlier, applied_append, applied_cons later]
  simp only [lastOfBoth_append, Option.or_assoc]

lemma lastOfBoth_next (hm : merge? earlier later = some merged) : lastOfBoth short long
      (applied matched (before ++ merged :: (between ++ after))) =
    (lastOfBoth short long (applied matched after)).or
      ((lastOfBoth short long (applied matched between)).or
        ((lastOfBoth short long (applied matched [later])).or
          ((lastOfBoth short long (applied matched [earlier])).or
            (lastOfBoth short long (applied matched before))))) := by
  rw [applied_append, applied_cons merged, applied_append]
  simp only [lastOfBoth_append, lastOfBoth_merge? hm, applied_cons earlier [later], Option.or_assoc]

lemma Overtakes.not_longhandLast (hne : short ≠ long) (h : Overtakes matched short long rules next) :
    ¬ LonghandLast short long (applied matched next) := by
  cases h with
  | intro before earlier between later after merged hm hbetween hlong hshort hafter =>
    rw [longhandLast_iff, lastOfBoth_next hm, lastOfBoth_eq_none_iff.2 hafter, Option.none_or]
    cases hlast : lastOfBoth short long (applied matched between) with
    | none => exact absurd hshort (lastOfBoth_eq_none_iff.1 hlast).2
    | some p =>
      rw [Option.some_or, Option.some.injEq]
      rintro rfl
      obtain ⟨r, hr, hp⟩ := mem_applied (mem_of_lastOfBoth hlast).1
      obtain ⟨l, hl, hp'⟩ := mem_applied hlong
      rw [List.mem_singleton.1 hl] at hp'
      exact hbetween r hr hp hp'

lemma longhandLast_merge (hm : merge? earlier later = some merged)
    (hbetween : ∀ r ∈ between, r.properties.Disjoint later.properties)
    (h : LonghandLast short long (applied matched (before ++ earlier :: (between ++ later :: after))))
    (hno : ¬ Overtakes matched short long (before ++ earlier :: (between ++ later :: after))
      (before ++ merged :: (between ++ after))) :
    LonghandLast short long (applied matched (before ++ merged :: (between ++ after))) := by
  rw [longhandLast_iff, lastOfBoth_rules] at h
  rw [longhandLast_iff, lastOfBoth_next hm, ← h]
  cases hafter : lastOfBoth short long (applied matched after) with
  | some p => rfl
  | none =>
    cases hlater : lastOfBoth short long (applied matched [later]) with
    | none => rfl
    | some p =>
      rw [hafter, hlater, Option.none_or, Option.some_or] at h
      obtain rfl : long = p := (Option.some.inj h).symm
      cases hlast : lastOfBoth short long (applied matched between) with
      | none => rfl
      | some q =>
        exfalso
        apply hno
        obtain ⟨hq, hboth⟩ := mem_of_lastOfBoth hlast
        have hlong := (mem_of_lastOfBoth hlater).1
        refine .intro before earlier between later after merged hm hbetween hlong ?_
          (lastOfBoth_eq_none_iff.1 hafter)
        rcases hboth with rfl | rfl
        · exact hq
        · obtain ⟨r, hr, hp⟩ := mem_applied hq
          obtain ⟨l, hl, hp'⟩ := mem_applied hlong
          rw [List.mem_singleton.1 hl] at hp'
          exact absurd hp' (hbetween r hr hp)

/-- A step moves a longhand that comes last if and only if it moves it up over its shorthand. -/
lemma longhandLast_step?_iff (hne : short ≠ long) (hstep : step? rules = some next)
    (h : LonghandLast short long (applied matched rules)) :
    LonghandLast short long (applied matched next) ↔ ¬ Overtakes matched short long rules next := by
  refine ⟨fun hnext ho => ho.not_longhandLast hne hnext, fun hno => ?_⟩
  unfold step? at hstep
  split at hstep
  · rename_i trimmed htrim
    obtain rfl := Option.some.inj hstep
    obtain ⟨before, r, after, rfl, rfl⟩ := trimFirst?_cases htrim
    have hr : lastOfBoth short long (applied matched [⟨r.selector, lastOfEach r.declarations⟩]) =
        lastOfBoth short long (applied matched [r]) := by
      rw [applied_singleton, applied_singleton]
      dsimp only
      split_ifs
      · exact lastOfBoth_lastOfEach r.declarations
      · rfl
    rw [longhandLast_iff, applied_append, applied_cons, lastOfBoth_append, lastOfBoth_append] at h ⊢
    rw [hr]
    exact h
  · obtain ⟨before, earlier, between, later, after, merged, rfl, rfl, hb, hm⟩ :=
      mergeFirst?_cases hstep
    exact longhandLast_merge hm (fun r hr => sharesProperty_eq_false_iff.1 (hb r hr)) h hno

end Merging

section Touching

variable {matched : String → Bool} {short long : String} {rules next : List Rule}

lemma mem_properties_lastOfEach {p : String} {r : Rule} :
    p ∈ (Rule.mk r.selector (lastOfEach r.declarations)).properties ↔ p ∈ r.properties := by
  have hiff : ∀ {d : StyleDeclaration} {ds : List StyleDeclaration}, d ∈ ds → d ∈ lastOfEach ds := by
    intro d ds hd
    induction ds with
    | nil => cases hd
    | cons e rest ih =>
      rw [lastOfEach]
      split_ifs with he
      · rcases List.mem_cons.1 hd with rfl | hd
        · exact ih (List.contains_iff_mem.1 he)
        · exact ih hd
      · rcases List.mem_cons.1 hd with rfl | hd
        · exact List.mem_cons_self
        · exact List.mem_cons_of_mem _ (ih hd)
  simp only [Rule.properties, List.mem_map]
  constructor
  · rintro ⟨d, hd, rfl⟩
    exact ⟨d, mem_of_mem_lastOfEach hd, rfl⟩
  · rintro ⟨d, hd, rfl⟩
    exact ⟨d, hiff hd, rfl⟩

lemma mem_properties_merge? {earlier later merged : Rule} {p : String}
    (hm : merge? earlier later = some merged) :
    p ∈ merged.properties ↔ p ∈ earlier.properties ∨ p ∈ later.properties := by
  rcases merge?_cases hm with ⟨-, rfl⟩ | ⟨hd, rfl⟩
  · have hboth := @mem_properties_lastOfEach p
      ⟨earlier.selector, earlier.declarations ++ later.declarations⟩
    rw [hboth]
    simp [Rule.properties]
  · simp [Rule.properties, hd]

lemma AreTouching.of_sources {before after : List Rule} (h : AreTouching short long before)
    (hsources : ∀ r ∈ after, ∀ p ∈ r.properties,
      ∃ s ∈ before, p ∈ s.properties ∧ s.properties ⊆ r.properties) :
    AreTouching short long after := by
  intro a ha b hb hshort hlong hdisjoint
  obtain ⟨s, hs, hshort', hsa⟩ := hsources a ha short hshort
  obtain ⟨l, hl, hlong', hlb⟩ := hsources b hb long hlong
  exact h s hs l hl hshort' hlong' fun p hp hp' => hdisjoint (hsa hp) (hlb hp')

lemma AreTouching.step? (hstep : step? rules = some next) (h : AreTouching short long rules) :
    AreTouching short long next := by
  refine step?_induction ?_ ?_ hstep h
  · intro before r after h
    apply h.of_sources
    intro s hs p hp
    rcases List.mem_append.1 hs with hs | hs
    · exact ⟨s, List.mem_append_left _ hs, hp, List.Subset.refl _⟩
    · rcases List.mem_cons.1 hs with rfl | hs
      · exact ⟨r, by simp, mem_properties_lastOfEach.1 hp,
          fun q hq => mem_properties_lastOfEach.2 hq⟩
      · exact ⟨s, by simp [hs], hp, List.Subset.refl _⟩
  · intro before earlier between later after merged _ hm h
    apply h.of_sources
    intro s hs p hp
    rcases List.mem_append.1 hs with hs | hs
    · exact ⟨s, List.mem_append_left _ hs, hp, List.Subset.refl _⟩
    · rcases List.mem_cons.1 hs with rfl | hs
      · rcases (mem_properties_merge? hm).1 hp with hp | hp
        · exact ⟨earlier, by simp, hp, fun q hq => (mem_properties_merge? hm).2 (.inl hq)⟩
        · exact ⟨later, by simp, hp, fun q hq => (mem_properties_merge? hm).2 (.inr hq)⟩
      · refine ⟨s, ?_, hp, List.Subset.refl _⟩
        rcases List.mem_append.1 hs with hs | hs <;> simp [hs]

lemma AreTouching.not_overtakes (h : AreTouching short long rules) :
    ¬ Overtakes matched short long rules next := by
  rintro ⟨before, earlier, between, later, after, merged, hm, hbetween, hlong, hshort, hafter⟩
  obtain ⟨r, hr, hshort⟩ := mem_applied hshort
  obtain ⟨l, hl, hlong⟩ := mem_applied hlong
  rw [List.mem_singleton.1 hl] at hlong
  exact h r (by simp [hr]) later (by simp) hshort hlong (hbetween r hr)

end Touching

/-- A longhand that comes last for an element, whatever its selectors, is taken from its place at
exactly those steps that move it up over its shorthand. So it comes last in the result if no step
does so, and no step does so where two rules that set the two properties touch. -/
theorem longhand_stays_last {config : Config} {css out : String} {rules : List Rule}
    (hrules : parse? css = some rules) (hout : Optimize.styles config css = .ok out)
    (matched : String → Bool) (short rest : String)
    (hlast : LonghandLast short (short ++ "-" ++ rest) (applied matched rules)) :
    ∃ kept n, parse? out = some kept ∧ Steps n rules kept ∧
      (∀ m mid next, Steps m rules mid → step? mid = some next →
        LonghandLast short (short ++ "-" ++ rest) (applied matched mid) →
        (LonghandLast short (short ++ "-" ++ rest) (applied matched next) ↔
          ¬ Overtakes matched short (short ++ "-" ++ rest) mid next)) ∧
      ((∀ m mid next, Steps m rules mid → step? mid = some next →
          ¬ Overtakes matched short (short ++ "-" ++ rest) mid next) →
        LonghandLast short (short ++ "-" ++ rest) (applied matched kept)) ∧
      (AreTouching short (short ++ "-" ++ rest) rules →
        LonghandLast short (short ++ "-" ++ rest) (applied matched kept)) := by
  have hne : short ≠ short ++ "-" ++ rest := by
    intro h
    have hlength := congrArg String.length h
    simp only [String.length_append] at hlength
    have hhyphen : "-".length = 1 := rfl
    omega
  obtain ⟨n, hs⟩ := exists_steps_merged rules
  refine ⟨merged rules, n, parse?_styles hrules hout, hs, fun m mid next _ hstep h => ?_, ?_, ?_⟩
  · exact longhandLast_step?_iff hne hstep h
  · intro hno
    refine hs.keeps (P := fun mid => LonghandLast short (short ++ "-" ++ rest) (applied matched mid))
      (fun m mid next hm hstep h => ?_) hlast
    exact (longhandLast_step?_iff hne hstep h).2 (hno m mid next hm hstep)
  · intro htouching
    have hboth := hs.keeps (P := fun mid => AreTouching short (short ++ "-" ++ rest) mid ∧
      LonghandLast short (short ++ "-" ++ rest) (applied matched mid)) ?_ ⟨htouching, hlast⟩
    · exact hboth.2
    · rintro m mid next - hstep ⟨htouching, h⟩
      exact ⟨htouching.step? hstep, (longhandLast_step?_iff hne hstep h).2 htouching.not_overtakes⟩

def ofTwoClasses (piece : String) : Bool := piece == ".a" || piece == ".b"

/-- The rule with the shorthand sets the longhand too. -/
theorem longhand_stays_last_touching :
    let css := ".a \x7bcolor: red\x7d\n.b \x7bmargin: 0; margin-top: 2px\x7d\n" ++
      ".a \x7bmargin-top: 1px; margin-top: 1px\x7d\n"
    let rules := [⟨".a", [("color", "red")]⟩, ⟨".b", [("margin", "0"), ("margin-top", "2px")]⟩,
      ⟨".a", [("margin-top", "1px"), ("margin-top", "1px")]⟩]
    parse? css = some rules ∧ LonghandLast "margin" "margin-top" (applied ofTwoClasses rules) ∧
      ∃ out kept, Optimize.styles {} css = .ok out ∧ out ≠ css ∧ parse? out = some kept ∧
        LonghandLast "margin" "margin-top" (applied ofTwoClasses kept) := by
  intro css rules
  have hrules : parse? css = some rules := by decide +kernel
  have hlast : LonghandLast "margin" "margin-top" (applied ofTwoClasses rules) :=
    longhandLast_iff.2 (by decide +kernel)
  have htouching : AreTouching "margin" "margin-top" rules := by
    intro a ha b hb hshort hlong hdisjoint
    have hsecond : ∀ r ∈ rules, "margin" ∈ r.properties → "margin-top" ∈ r.properties := by
      decide +kernel
    exact hdisjoint (hsecond a ha hshort) hlong
  obtain ⟨out, hout⟩ := @exists_styles {} css "  " rfl
  obtain ⟨kept, -, hkept, -, -, -, hstays⟩ :=
    longhand_stays_last hrules hout ofTwoClasses "margin" "top" hlast
  refine ⟨hrules, hlast, out, kept, hout, ?_, hkept, hstays htouching⟩
  rintro rfl
  have hagain : Optimize.styles {} css ≠ .ok css := by decide +kernel
  exact hagain hout

/-- A longhand is moved up over its shorthand, which then decides in its place. -/
theorem longhand_overtaken :
    let css := ".a \x7bcolor: red\x7d\n.b \x7bmargin: 0\x7d\n.a \x7bmargin-top: 1px\x7d\n"
    let out := ".a \x7b\n  color: red;\n  margin-top: 1px;\n\x7d\n\n.b \x7b\n  margin: 0;\n\x7d\n"
    ∃ rules kept, parse? css = some rules ∧ Optimize.styles {} css = .ok out ∧
      parse? out = some kept ∧
      LonghandLast "margin" "margin-top" (applied ofTwoClasses rules) ∧
      ¬ LonghandLast "margin" "margin-top" (applied ofTwoClasses kept) := by
  intro css out
  let rules : List Rule := [⟨".a", [("color", "red")]⟩, ⟨".b", [("margin", "0")]⟩,
    ⟨".a", [("margin-top", "1px")]⟩]
  let kept : List Rule := [⟨".a", [("color", "red"), ("margin-top", "1px")]⟩,
    ⟨".b", [("margin", "0")]⟩]
  have hrules : parse? css = some rules := by decide +kernel
  have hout : Optimize.styles {} css = .ok out := by decide +kernel
  have hkept : parse? out = some kept := by decide +kernel
  refine ⟨rules, kept, hrules, hout, hkept, longhandLast_iff.2 (by decide +kernel), fun h => ?_⟩
  have hlast := longhandLast_iff.1 h
  exact absurd hlast (by decide +kernel)

end ViewWriter.Stylesheet
