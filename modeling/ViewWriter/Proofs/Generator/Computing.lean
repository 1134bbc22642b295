import ViewWriter.Proofs.Generator.StyleReference
import ViewWriter.Proofs.Target.Nodes

/-! Code that is computed. Where the templates of a framework write their texts within a number of steps,
a registry of that framework alone makes code with these texts. -/

namespace ViewWriter

open ViewWriter.Text ViewWriter.Template

namespace Json

def isText (s : String) : Json → Bool
  | str t => t == s
  | _ => false

lemma eq_str_of_isText {v : Json} {s : String} (h : v.isText s = true) : v = .str s := by
  cases v with
  | str t => rw [beq_iff_eq.1 h]
  | _ => cases h

end Json

namespace Generator

variable {f : Framework} {config : Config} {v : View} {fields : Table Json} {r : Registry}
  {s : Subject} {o : Options} {settings : Registry.Settings} {text indexText : String}

lemma artifact_of_written (hr : r.Stocks (ofFramework f config)) {kind source : String}
    (hkind : kind ∈ artifactKinds)
    (hsource : Json.member (Target.ofFramework f).templates kind = .str source) {steps : ℕ}
    (h : writtenWithin (r.store.helpersFor (some f.key)) steps (.obj fields) (compile source) =
      some text) (name : String) :
    artifact (r.freeze.engine (ofFramework f config)) (.obj fields) kind name =
      .ok ⟨name, tidy text⟩ := by
  rw [artifact, render_stocked hr hkind hsource, renderAll_of_written h]
  rfl

lemma exists_files_of_written (hr : r.Stocks (ofFramework f config))
    (hfields : (ofFramework f config).contextOf v = .ok fields) {steps : ℕ}
    (hmain : writtenWithin (r.store.helpersFor (some f.key)) steps (.obj fields)
      (Target.mainNodes v.page f) = some text)
    (hindex : writtenWithin (r.store.helpersFor (some f.key)) steps (.obj fields)
      (Target.indexNodes f) = some indexText) :
    ∃ styles index, (ofFramework f config).files (r.freeze.engine (ofFramework f config)) v =
        .ok [("main", ⟨v.files.main, tidy text⟩), ("styles", styles), ("index", index)] ∧
      styles.name = v.files.styles ∧ (styles.content ≠ "" ↔ v.parts.styles ≠ []) := by
  obtain ⟨hkind, source, hsource⟩ := exists_mainSource f v.page
  rw [← Target.compile_main hsource] at hmain
  rw [← Target.compile_index] at hindex
  have hwritten := artifact_of_written hr hkind hsource hmain v.files.main
  have hindexed := artifact_of_written hr (by decide) (Target.member_index f) hindex v.files.index
  obtain ⟨styles, hstyles⟩ := exists_artifact hr "styles" (by decide) (styleSource f)
    Target.areUnfailing_stylesheet fields v.files.styles
  exact ⟨styles, _, files_eq_ok_iff.2 ⟨fields, _, styles, _, hfields, hwritten, hstyles, hindexed, rfl⟩,
    styles_written_iff hr hfields hstyles⟩

/-- Whether a registry of one framework alone makes code of a subject, and its view passes a check. -/
def makes (f : Framework) (settings : Registry.Settings) (s : Subject) (o : Options)
    (check : Generator → View → Bool) : Bool :=
  (Registry.create {} (.arr [.str f.key]) settings .null).toOption.any fun r =>
    (r.resolve o.framework).toOption.any fun g =>
      g.framework == f && (g.config.warnings f.key).toOption.isSome &&
        (g.view s o).toOption.any fun v => check g v && (g.contextOf v).toOption.any fun fields =>
          let write := writtenWithin (r.store.helpersFor (some f.key)) 100 (.obj fields)
          (write (Target.mainNodes v.page f)).isSome && (write (Target.indexNodes f)).isSome

/-- Code that is computed is made. -/
lemma exists_made (f : Framework) (settings : Registry.Settings)
    (check : Generator → View → Bool) (ho : o.optimize.isGiven = false)
    (h : makes f settings s o check = true) :
    ∃ r g v code main styles index, Registry.create {} (.arr [.str f.key]) settings .null = .ok r ∧
      r.resolve o.framework = .ok g ∧ g.framework = f ∧ g.view s o = .ok v ∧
      check g v = true ∧ (r.generate s o).2 = .ok code ∧
      code.files = [("main", main), ("styles", styles), ("index", index)] ∧
      main.name = v.files.main ∧ styles.name = v.files.styles ∧
      (styles.content ≠ "" ↔ v.parts.styles ≠ []) := by
  simp only [makes, Option.any_eq_true, toOption_eq_some_iff, Bool.and_eq_true, beq_iff_eq,
    Option.isSome_iff_exists] at h
  obtain ⟨r, hr, g, hg, ⟨hframework, warnings, hwarnings⟩, v, hview, hcheck, fields, hfields,
    ⟨text, htext⟩, indexText, hindex⟩ := h
  have hstocks := Registry.stocks_create hr g (Registry.mem_of_resolve hg)
  obtain ⟨f', config, rfl, -⟩ := id hstocks
  rw [Registry.framework_ofFramework] at hframework
  subst hframework
  obtain ⟨styles, index, hfiles, hstyles⟩ := exists_files_of_written hstocks hfields htext hindex
  have hwarned : (ofFramework f' config).config.warnings (ofFramework f' config).framework.key =
      .ok warnings := by
    rwa [Registry.framework_ofFramework]
  obtain ⟨code, hcode, hcoded, -⟩ := generate_of_files hview hfiles hwarned ho
  refine ⟨r, _, v, code, _, styles, index, hr, hg, Registry.framework_ofFramework _ _, hview, hcheck,
    ?_, hcoded, rfl, hstyles⟩
  rw [Registry.generate, hg]
  exact hcode

end Generator

end ViewWriter
