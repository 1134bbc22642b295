import ViewWriter.Proofs.Script.SharedLines
import ViewWriter.Proofs.Stylesheet.Fixpoint

/-! Optimized code stays as it is when it is optimized again. -/

namespace ViewWriter

open Script Text

section Fragments

variable {config : Config} {least : Json} {code out : String} {n : Int}

lemma shareOnce?_error {e : Fault} {least : ℕ} {cs next : List Char} :
    shareOnce? (.error e) least cs ≠ .ok (some next) := by
  rw [shareOnce?]
  cases repeated? (staticBlocks least 0 (lines cs)) with
  | none => simp
  | some b => cases nextShared cs <;> simp [bind, Except.bind]

lemma shareRounds_error {e : Fault} {least rounds : ℕ} {cs result : List Char}
    (h : shareRounds (.error e) least rounds cs = .ok result) : result = cs := by
  cases rounds with
  | zero => exact (Except.ok.inj h).symm
  | succ rounds =>
    obtain ⟨next, hnext, h⟩ := bind_eq_ok_iff.1 h
    cases next with
    | none => exact (Except.ok.inj h).symm
    | some next => exact absurd hnext shareOnce?_error

lemma shareBlocks_of_not_repeats {unit : String} {least : ℕ} (h : ¬Repeats least code.toList) :
    shareBlocks (.ok unit) least code = .ok code := by
  have hpos : (lines code.toList).length ≠ 0 := by
    simpa [lines] using splitOn_ne_nil '\n' code.toList
  obtain ⟨rounds, hrounds⟩ := Nat.exists_eq_succ_of_ne_zero hpos
  have hround : shareRounds (.ok unit) least (rounds + 1) code.toList = .ok code.toList := by
    rw [shareRounds_succ, shareOnce?_of_not_repeats h]
    rfl
  rw [shareBlocks, hrounds]
  simp only [hround, bind, Except.bind, pure, Except.pure, String.ofList_toList]

lemma fragments_again (h : Optimize.fragments config least code = .ok out) :
    Optimize.fragments config least out = .ok out ∧
      (out = code ∨ ∃ unit ns, (∀ c ∈ unit, isMargin c) ∧
        SharedRun unit (lines code.toList) ns (lines out.toList)) := by
  by_cases hexport : hasExport (lines code.toList) = true
  · cases hleast : (if least.isNull then config.dedupeMinLines else least).toInteger with
    | error e =>
      simp only [Optimize.fragments, hexport, hleast] at h
      cases h
    | ok n =>
      cases hunit : config.indentUnit with
      | error e =>
        obtain rfl : out = code := by
          simp only [Optimize.fragments, hexport, hleast, hunit, shareBlocks] at h
          obtain ⟨_, -, h⟩ := bind_eq_ok_iff.1 h
          obtain ⟨shared, hshared, h⟩ := bind_eq_ok_iff.1 h
          obtain rfl := Except.ok.inj h
          rw [shareRounds_error hshared, String.ofList_toList]
        exact ⟨h, .inl rfl⟩
      | ok unit =>
        have hnumbers : ¬Unnumberable unit (max n.toNat Optimize.leastLines) code := by
          intro hstuck
          rw [fragments_unnumberable hunit hleast hstuck] at h
          cases h
        obtain ⟨out', ns, hout, hrun, hdone⟩ := fragments_numberable hunit hleast hexport hnumbers
        obtain rfl := Except.ok.inj (hout.symm.trans h)
        refine ⟨?_, .inr ⟨_, ns, margin_of_indentUnit hunit, hrun⟩⟩
        rw [fragments_eq hunit hleast (hrun.hasExport hexport), shareBlocks_of_not_repeats hdone]
  · have hsame : Optimize.fragments config least code = .ok code := by
      simp [Optimize.fragments, hexport]
    obtain rfl := Except.ok.inj (hsame.symm.trans h)
    exact ⟨hsame, .inl rfl⟩

end Fragments

section Main

variable {config : Config} {framework : Framework} {imports : List WeightedImport} {lazy : Json}
  {extension code out : String} {preserve : List String} {weights : Table WeightedImport}

lemma imports_eq (hnames : Optimize.names config.preserveImports = .ok preserve) (code : String) :
    Optimize.imports config .null code = .ok (withoutUnused preserve code) := by
  have hkept : Optimize.names (if Json.null.isNull then config.preserveImports else .null) =
      .ok preserve := hnames
  simp only [Optimize.imports, hkept]
  rfl

lemma exists_imports_eq (h : Optimize.imports config .null code = .ok out) :
    ∃ preserve, Optimize.names config.preserveImports = .ok preserve ∧
      out = withoutUnused preserve code := by
  obtain ⟨preserve, hnames, h⟩ := bind_eq_ok_iff.1 h
  exact ⟨preserve, hnames, (Except.ok.inj h).symm⟩

lemma mainScript_eq : Optimize.mainScript config framework imports lazy extension code =
    Optimize.imports config .null code >>= fun used =>
      (if Optimize.wantsLazy lazy imports && framework != .angular
        then Optimize.loading config framework imports used else .ok used) >>= fun loaded =>
        if extension == "jsx" || extension == "tsx" then Optimize.fragments config .null loaded
        else .ok loaded := by
  unfold Optimize.mainScript
  split_ifs <;> rfl

lemma areComponents_byName
    (h : ∀ i ∈ imports, WeightedImport.make i.name i.source i.weight = .ok i ∧
      ∀ c ∈ i.source.toList, isQuote c = false ∧ c ≠ '\n') :
    AreComponents (Optimize.byName imports) := by
  have hmem : ∀ e ∈ Optimize.byName imports, e.2 ∈ imports ∧ e.1 = e.2.name := by
    intro e he
    rcases Table.mem_of_mem_merge he with he | he
    · cases he
    · obtain ⟨i, hi, rfl⟩ := List.mem_map.1 he
      exact ⟨hi, rfl⟩
  exact
    { name := fun e he => (hmem e he).2
      made := fun e he => (h _ (hmem e he).1).1
      source := fun e he => (h _ (hmem e he).1).2 }

lemma wrapperLine?_of_found (hweights : AreComponents weights)
    (h : found 0 (pieces lazyLineAt? code.toList) = []) :
    ∀ l ∈ codeLines code.toList, wrapperLine? weights l = none := by
  have hspans := lazySpans_eq (areLines_codeLines code.toList) hweights.notMem_source
    (flatten_codeLines code.toList).symm
  have hvalues := congrArg (List.map (·.1)) hspans
  rw [lazySpans, h, map_lineValue] at hvalues
  exact List.filterMap_eq_nil_iff.1 hvalues.symm

lemma codeLines_withoutUnused (hwhole : ∀ l ∈ codeLines code.toList, isWhole l) :
    codeLines (withoutUnused preserve code).toList =
      (codeLines code.toList).flatMap (restrictLine (keptNames preserve code).contains) := by
  have hlines := areLines_codeLines code.toList
  rw [withoutUnused_lines hlines hwhole (flatten_codeLines code.toList).symm, String.toList_ofList,
    (areLines_restrict hlines).codeLines_flatten]

/-- A script that the first passes leave as it is. -/
structure IsSettled (config : Config) (framework : Framework) (imports : List WeightedImport)
    (lazy : Json) (preserve : List String) (code : String) : Prop where
  tidy : AreTidy preserve (codeLines code.toList)
  regrouped : (Optimize.wantsLazy lazy imports && framework != .angular) = true →
    IsRegrouped framework (Optimize.threshold config) (Optimize.byName imports)
      (codeLines code.toList)

lemma IsSettled.mainScript_eq (h : IsSettled config framework imports lazy preserve code)
    (hweights : AreComponents (Optimize.byName imports))
    (hnames : Optimize.names config.preserveImports = .ok preserve)
    (hshared : (extension == "jsx" || extension == "tsx") = true →
      Optimize.fragments config .null code = .ok code) :
    Optimize.mainScript config framework imports lazy extension code = .ok code := by
  have hcode := (flatten_codeLines code.toList).symm
  have hused := h.tidy.used.withoutUnused h.tidy.areLines h.tidy.whole hcode
  have hloaded : (if (Optimize.wantsLazy lazy imports && framework != .angular) = true
      then Optimize.loading config framework imports code else .ok code) = .ok code := by
    split_ifs with hlazy
    · exact (h.regrouped hlazy).regroupLoading_eq hweights h.tidy hcode
    · rfl
  rw [ViewWriter.mainScript_eq, imports_eq hnames, hused]
  simp only [bind, Except.bind, hloaded]
  split_ifs with hextension
  · exact hshared hextension
  · rfl

/-- Loading settles a script without unused imports. -/
lemma isSettled_loaded {loaded : String} (hweights : AreComponents (Optimize.byName imports))
    (hlazy : found 0 (pieces lazyLineAt? code.toList) = [])
    (hwhole : ∀ l ∈ codeLines code.toList, isWhole l)
    (h : (if (Optimize.wantsLazy lazy imports && framework != .angular) = true
      then Optimize.loading config framework imports (withoutUnused preserve code)
      else .ok (withoutUnused preserve code)) = .ok loaded) :
    IsSettled config framework imports lazy preserve loaded := by
  have htidy : AreTidy preserve (codeLines (withoutUnused preserve code).toList) := by
    rw [codeLines_withoutUnused hwhole]
    exact areTidy_restrict (areLines_codeLines code.toList) hwhole
      (flatten_codeLines code.toList).symm
  have hnone : ∀ l ∈ codeLines (withoutUnused preserve code).toList,
      wrapperLine? (Optimize.byName imports) l = none := by
    rw [codeLines_withoutUnused hwhole]
    exact wrapperLine?_restrict (wrapperLine?_of_found hweights hlazy)
  split_ifs at h with hwants
  · obtain ⟨ms, hloaded, hms, hregrouped⟩ :=
      htidy.regroupLoading hweights hnone (flatten_codeLines _).symm h
    have hlines : codeLines loaded.toList = ms := by rw [hloaded, hms.areLines.codeLines_flatten]
    exact ⟨hlines ▸ hms, fun _ => hlines ▸ hregrouped⟩
  · obtain rfl := Except.ok.inj h
    exact ⟨htidy, fun hlazy => absurd hlazy hwants⟩

lemma IsSettled.shared {unit : List Char} {ns : List ℕ} (hunit : ∀ c ∈ unit, isMargin c)
    (h : IsSettled config framework imports lazy preserve code)
    (hrun : SharedRun unit (lines code.toList) ns (lines out.toList)) :
    IsSettled config framework imports lazy preserve out :=
  ⟨h.tidy.shared hunit hrun, fun hlazy => (h.regrouped hlazy).shared hunit hrun⟩

/-- A main script is optimized into one that stays as it is. -/
lemma mainScript_again (hweights : AreComponents (Optimize.byName imports))
    (hlazy : found 0 (pieces lazyLineAt? code.toList) = [])
    (hwhole : ∀ l ∈ codeLines code.toList, isWhole l)
    (h : Optimize.mainScript config framework imports lazy extension code = .ok out) :
    Optimize.mainScript config framework imports lazy extension out = .ok out := by
  rw [mainScript_eq] at h
  obtain ⟨used, hused, hrest⟩ := bind_eq_ok_iff.1 h
  obtain ⟨loaded, hloaded, hshared⟩ := bind_eq_ok_iff.1 hrest
  obtain ⟨preserve, hnames, rfl⟩ := exists_imports_eq hused
  have hsettled := isSettled_loaded hweights hlazy hwhole hloaded
  split_ifs at hshared with hextension
  · obtain ⟨hagain, rfl | ⟨unit, ns, hunit, hrun⟩⟩ := fragments_again hshared
    · exact hsettled.mainScript_eq hweights hnames fun _ => hagain
    · exact (hsettled.shared hunit hrun).mainScript_eq hweights hnames fun _ => hagain
  · obtain rfl := Except.ok.inj hshared
    exact hsettled.mainScript_eq hweights hnames fun hshares => absurd hshares hextension

end Main

section Files

variable {config : Config} {framework : Framework} {imports : List WeightedImport} {lazy : Json}
  {kind : String} {a b : Artifact}

lemma artifact_eq : Optimize.artifact config framework imports lazy kind a =
    (if kind == "styles" && Text.lower a.extension == "css" then Optimize.styles config a.content
      else if kind == "main" then
        Optimize.mainScript config framework imports lazy (Text.lower a.extension) a.content
      else .ok a.content) >>= fun content => .ok { a with content } := by
  dsimp only [Optimize.artifact]
  split_ifs <;> rfl

lemma artifact_again (hweights : AreComponents (Optimize.byName imports))
    (hmain : kind = "main" → found 0 (pieces lazyLineAt? a.content.toList) = [] ∧
      ∀ l ∈ codeLines a.content.toList, isWhole l)
    (h : Optimize.artifact config framework imports lazy kind a = .ok b) :
    Optimize.artifact config framework imports lazy kind b = .ok b := by
  rw [artifact_eq] at h ⊢
  obtain ⟨content, hcontent, h⟩ := bind_eq_ok_iff.1 h
  obtain rfl := Except.ok.inj h
  refine bind_eq_ok_iff.2 ⟨content, ?_, rfl⟩
  have hname : Artifact.extension { a with content } = a.extension := rfl
  rw [hname]
  split_ifs at hcontent ⊢ with hstyles hkind
  · exact Stylesheet.styles_again hcontent
  · obtain ⟨hlazy, hwhole⟩ := hmain (eq_of_beq hkind)
    exact mainScript_again hweights hlazy hwhole hcontent
  · rfl

end Files

/-- Optimizing optimized code again, with the same imports and settings, changes no file. -/
theorem optimize_idempotent {config : Config} {imports : List WeightedImport} {lazy : Json}
    {code optimized : Code}
    (himports : ∀ i ∈ imports, WeightedImport.make i.name i.source i.weight = .ok i ∧
      ∀ c ∈ i.source.toList, isQuote c = false ∧ c ≠ '\n')
    (hmain : ∀ e ∈ code.files, e.1 = "main" → found 0 (pieces lazyLineAt? e.2.content.toList) = [] ∧
      ∀ l ∈ codeLines e.2.content.toList, isWhole l)
    (h : Optimize.code config imports lazy code = .ok optimized) :
    ∃ again, Optimize.code config imports lazy optimized = .ok again ∧
      again.files = optimized.files := by
  unfold Optimize.code at h ⊢
  obtain ⟨files, hfiles, h⟩ := bind_eq_ok_iff.1 h
  obtain rfl := Except.ok.inj h
  refine ⟨_, bind_eq_ok_iff.2 ⟨files, mapM_eq_ok_iff.2 ?_, rfl⟩, rfl⟩
  refine List.forall₂_same.2 fun e he => ?_
  obtain ⟨e', he', hmade⟩ := exists_of_mem_right (mapM_eq_ok_iff.1 hfiles) he
  obtain ⟨a, ha, hmade⟩ := bind_eq_ok_iff.1 hmade
  obtain rfl := Except.ok.inj hmade
  have hagain := artifact_again (areComponents_byName himports) (hmain e' he') ha
  exact bind_eq_ok_iff.2 ⟨a, hagain, rfl⟩

/-- A page with an unused import, a component to be loaded later and a rule written twice. -/
theorem optimize_idempotent_card :
    let imports : List WeightedImport := [⟨"Card", "./Card", .int 0⟩]
    let page := "import Old from './Old';\nimport Card from './Card';\n" ++
      "export default () => <Card />;\n"
    let page' := "import \x7b lazy \x7d from 'react';\n" ++
      "const Card = lazy(() => import('./Card'));\nexport default () => <Card />;\n"
    let sheet := ".a \x7b\n  color: red;\n\x7d\n\n.b \x7b\n  color: red;\n\x7d\n"
    let sheet' := ".a, .b \x7b\n  color: red;\n\x7d\n"
    let code : Code :=
      ⟨[("main", ⟨"Page.jsx", page⟩), ("styles", ⟨"Page.css", sheet⟩)], .react, [], []⟩
    ∃ optimized again, Optimize.code {} imports (.bool true) code = .ok optimized ∧
      optimized.files = [("main", ⟨"Page.jsx", page'⟩), ("styles", ⟨"Page.css", sheet'⟩)] ∧
      Optimize.code {} imports (.bool true) optimized = .ok again ∧
      again.files = optimized.files := by
  intro imports page page' sheet sheet' code
  let used := "import Card from './Card';\nexport default () => <Card />;\n"
  have hused : Optimize.imports {} .null page = .ok used := by decide +kernel
  have hknown : importSpans .react (Optimize.byName imports) used ++
      lazySpans (Optimize.byName imports) used =
        [(⟨"Card", "./Card", .int 0⟩, ⟨0, 27, []⟩)] := by decide +kernel
  have hprimitive : primitiveSpans .react used = [] := by decide +kernel
  have hloaded : Optimize.loading {} .react imports used = .ok page' := by
    simp only [Optimize.loading, regroupLoading, hknown, hprimitive, List.map_cons, List.map_nil,
      List.append_nil, List.mergeSort_singleton, distinct, List.foldl_cons,
      List.foldl_nil, List.any_nil]
    decide +kernel
  have hshared : Optimize.fragments {} .null page' = .ok page' := by decide +kernel
  have hmerged : Optimize.styles {} sheet = .ok sheet' := by decide +kernel
  have hmain : Optimize.artifact {} .react imports (.bool true) "main" ⟨"Page.jsx", page⟩ =
      .ok ⟨"Page.jsx", page'⟩ := by
    have hjsx : Text.lower (Artifact.extension ⟨"Page.jsx", page⟩) = "jsx" := by decide +kernel
    have hscript : Optimize.mainScript {} .react imports (.bool true) "jsx" page = .ok page' := by
      rw [mainScript_eq]
      exact bind_eq_ok_iff.2 ⟨used, hused, bind_eq_ok_iff.2
        ⟨page', (if_pos rfl).trans hloaded, (if_pos rfl).trans hshared⟩⟩
    rw [artifact_eq, hjsx]
    exact bind_eq_ok_iff.2 ⟨page', hscript, rfl⟩
  have hstyles : Optimize.artifact {} .react imports (.bool true) "styles" ⟨"Page.css", sheet⟩ =
      .ok ⟨"Page.css", sheet'⟩ := by
    have hcss : Text.lower (Artifact.extension ⟨"Page.css", sheet⟩) = "css" := by decide +kernel
    rw [artifact_eq, hcss]
    exact bind_eq_ok_iff.2 ⟨sheet', hmerged, rfl⟩
  have hcode : ∃ optimized, Optimize.code {} imports (.bool true) code = .ok optimized ∧
      optimized.files = [("main", ⟨"Page.jsx", page'⟩), ("styles", ⟨"Page.css", sheet'⟩)] :=
    ⟨_, bind_eq_ok_iff.2 ⟨_, mapM_eq_ok_iff.2 (.cons (bind_eq_ok_iff.2 ⟨_, hmain, rfl⟩)
      (.cons (bind_eq_ok_iff.2 ⟨_, hstyles, rfl⟩) .nil)), rfl⟩, rfl⟩
  obtain ⟨optimized, hoptimized, hfiles⟩ := hcode
  have himports : ∀ i ∈ imports, WeightedImport.make i.name i.source i.weight = .ok i ∧
      ∀ c ∈ i.source.toList, isQuote c = false ∧ c ≠ '\n' := by
    have hmade : WeightedImport.make "Card" "./Card" (.int 0) = .ok ⟨"Card", "./Card", .int 0⟩ := by
      decide +kernel
    have hsource : "./Card".toList.all fun c => !isQuote c && c != '\n' := by decide
    intro i hi
    obtain rfl := List.mem_singleton.1 hi
    exact ⟨hmade, fun c hc => by simpa using List.all_eq_true.1 hsource c hc⟩
  have hwhole : ∀ e ∈ code.files, e.1 = "main" →
      found 0 (pieces lazyLineAt? e.2.content.toList) = [] ∧
        ∀ l ∈ codeLines e.2.content.toList, isWhole l := by
    intro e he hname
    rcases List.mem_pair.1 he with rfl | rfl
    · exact ⟨by decide +kernel, by decide +kernel⟩
    · exact absurd hname (by decide)
  obtain ⟨again, hagain, hsame⟩ := optimize_idempotent himports hwhole hoptimized
  exact ⟨optimized, again, hoptimized, hfiles, hagain, hsame⟩
end ViewWriter
