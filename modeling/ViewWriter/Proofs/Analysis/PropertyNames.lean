import ViewWriter.Proofs.Analysis.Styles
import ViewWriter.Proofs.Name.Words

/-! Names of style properties. A name that is words with hyphens between them is kept, and its spelling
without hyphens stands for the same property if its words can be told apart. -/

namespace ViewWriter.Analysis

open ViewWriter.Text ViewWriter.Name ViewWriter.Schema

/-- The words of a property, which may be that of one vendor. -/
structure PropertyName where
  vendor : Bool
  first : List Char
  rest : List (List Char)
  isWord : ∀ w ∈ first :: rest, IsLetterWord w

namespace PropertyName

/-- The words with hyphens between them, and one in front for a vendor. -/
def name (p : PropertyName) : String :=
  String.ofList ((if p.vendor then ['-'] else []) ++ joinWith ['-'] (p.first :: p.rest))

/-- The words with capitals instead of hyphens. -/
def scriptName (p : PropertyName) : String :=
  String.ofList ((if p.vendor then capitalizeChars p.first else p.first) ++
    p.rest.flatMap capitalizeChars)

/-- The words that have a capital in a script can be told apart there. -/
def ToldApart (p : PropertyName) : Prop :=
  (if p.vendor then p.first :: p.rest else p.rest).IsChain TellsApart

instance (p : PropertyName) : Decidable p.ToldApart :=
  inferInstanceAs (Decidable ((if p.vendor then p.first :: p.rest else p.rest).IsChain TellsApart))

variable (p : PropertyName)

lemma isTagWord : ∀ w ∈ p.first :: p.rest, IsTagWord w := fun w hw => (p.isWord w hw).tagWord

lemma exists_first : ∃ c more, p.first = c :: more ∧ isAsciiLower c = true := by
  obtain ⟨c, more, hfirst, hsmall, -⟩ := (p.isWord p.first List.mem_cons_self).eq_cons
  exact ⟨c, more, hfirst, hsmall⟩

lemma wordChars_name : wordChars p.name.toList = p.first :: p.rest := by
  have hwords := wordChars_joinWith (p.isTagWord p.first List.mem_cons_self) fun w hw =>
    p.isTagWord w (List.mem_cons_of_mem _ hw)
  rw [name, String.toList_ofList]
  cases p.vendor with
  | false => exact hwords
  | true => exact (wordChars_skip (by decide)).trans hwords

lemma wordChars_scriptName : wordChars p.scriptName.toList = p.first :: p.rest ↔ p.ToldApart := by
  obtain ⟨hfirst, hrest⟩ := List.forall_mem_cons.1 p.isWord
  rw [scriptName, String.toList_ofList, ToldApart]
  cases p.vendor with
  | false =>
    rw [if_neg Bool.false_ne_true, if_neg Bool.false_ne_true, wordChars_capitals hfirst hrest (.inl rfl)]
    exact and_iff_right (.inl rfl)
  | true =>
    rw [if_pos rfl, if_pos rfl, wordChars_capitals hfirst hrest (.inr rfl), List.isChain_cons,
      or_iff_right hfirst.capitalizeChars_ne]

lemma styleProperty_eq {key : String} (h : key = p.name ∨ key = p.scriptName) :
    styleProperty key = kebab key := by
  obtain ⟨c, more, hfirst, hsmall⟩ := p.exists_first
  have hletter : c ≠ '-' ∧ asciiUpper c ≠ '-' :=
    of_lower (P := fun c => c ≠ '-' ∧ asciiUpper c ≠ '-') (by decide) hsmall
  have hmark : "--".toList = ['-', '-'] := by decide
  refine if_neg ?_
  rw [hmark]
  rcases h with rfl | rfl
  · rw [name, String.toList_ofList, joinWith_eq, hfirst]
    cases p.vendor <;> simp [hletter.1.symm]
  · rw [scriptName, String.toList_ofList, hfirst]
    cases p.vendor <;> simp [capitalizeChars, hletter.1.symm, hletter.2.symm]

lemma styleProperty_name (h : p.vendor = false) : styleProperty p.name = p.name := by
  rw [p.styleProperty_eq (.inl rfl), kebab, kebabChars, p.wordChars_name, name, h]
  rfl

lemma styleProperty_scriptName : styleProperty p.scriptName = styleProperty p.name ↔ p.ToldApart := by
  rw [p.styleProperty_eq (.inl rfl), p.styleProperty_eq (.inr rfl), kebab, kebab, String.ofList_inj,
    kebabChars_eq_iff, p.wordChars_name, p.wordChars_scriptName]

end PropertyName

variable {config : Config} {unit : String} {records : List Record} {node : Record}
  {classes : Table String} {before after : Table Json} {key : String} {v : Json}

lemma styleDeclarations_append (unit : String) (before after : Table Json) :
    styleDeclarations unit (before ++ after) =
      styleDeclarations unit before ++ styleDeclarations unit after := by
  rw [styleDeclarations, List.filter_append, List.map_append]
  rfl

lemma styleDeclarations_cons (hv : isEmptyValue v = false) (rest : Table Json) :
    styleDeclarations unit ((key, v) :: rest) =
      (styleProperty key, styleValue (styleProperty key) v unit) :: styleDeclarations unit rest := by
  rw [styleDeclarations, List.filter_cons_of_pos (by simp [hv]), List.map_cons]
  rfl

lemma exists_rule (hclasses : classNames config records = .ok classes) (hnode : node ∈ records)
    (hstyle : (key, v) ∈ node.style) (hv : isEmptyValue v = false) (unit : String) :
    ∃ r ∈ styleRules unit classes records,
      r.nodeId = node.id ∧ r.declarations = styleDeclarations unit node.style := by
  obtain ⟨className, hclass⟩ := Table.exists_get?_of_mem
    ((mem_keys_classNames hclasses).2 ⟨node, hnode, rfl, List.ne_nil_of_mem hstyle⟩)
  have hne : styleDeclarations unit node.style ≠ [] := fun hnil => by
    simp [styleDeclarations_eq_nil_iff.1 hnil _ hstyle] at hv
  exact ⟨_, mem_styleRules.2 ⟨node, hnode, className, hclass, hne, rfl⟩, rfl, rfl⟩

/-- A style with a value is declared at its place in the rule of its node. If its key is the name of a
property, words with hyphens between them, then it is declared under this name. If the key is the name
as it is spelled in scripts, then it is declared as it would be under the name itself if and only if
the words can be told apart in this spelling. -/
theorem property_names_kept (hclasses : classNames config records = .ok classes)
    (hnode : node ∈ records) (hstyle : node.style = before ++ (key, v) :: after)
    (hv : isEmptyValue v = false) (unit : String) :
    ∃ r ∈ styleRules unit classes records, r.nodeId = node.id ∧ ∃ property,
      r.declarations = styleDeclarations unit before ++
        (property, styleValue property v unit) :: styleDeclarations unit after ∧
      ∀ p : PropertyName, (key = p.name → p.vendor = false → property = p.name) ∧
        (key = p.name → property = styleProperty p.name) ∧
        (key = p.scriptName → (property = styleProperty p.name ↔ p.ToldApart)) := by
  have hmem : (key, v) ∈ node.style := by simp [hstyle]
  obtain ⟨r, hr, hid, hdeclarations⟩ := exists_rule hclasses hnode hmem hv unit
  refine ⟨r, hr, hid, styleProperty key, ?_, fun p => ⟨?_, ?_, ?_⟩⟩
  · rw [hdeclarations, hstyle, styleDeclarations_append, styleDeclarations_cons hv]
  · rintro rfl hvendor
    exact p.styleProperty_name hvendor
  · rintro rfl
    rfl
  · rintro rfl
    exact p.styleProperty_scriptName

def backgroundColor : PropertyName :=
  ⟨false, "background".toList, ["color".toList], by decide⟩

def colored : Record := ⟨"a", "div", [], [("margin-top", .int 8), ("backgroundColor", .str "red")], .null⟩

theorem property_names_kept_backgroundColor :
    classNames {} [colored] = .ok [("a", "div-a")] ∧ colored ∈ [colored] ∧
      colored.style = [("margin-top", .int 8)] ++ ("backgroundColor", .str "red") :: [] ∧
      isEmptyValue (.str "red") = false ∧
      ∃ r ∈ styleRules "px" [("a", "div-a")] [colored],
        r.declarations = [("margin-top", "8px"), ("background-color", "red")] := by
  have hclasses : classNames {} [colored] = .ok [("a", "div-a")] := by rfl
  have hnode : colored ∈ [colored] := List.mem_singleton_self _
  have hstyle : colored.style = [("margin-top", .int 8)] ++ ("backgroundColor", .str "red") :: [] := rfl
  obtain ⟨r, hr, -, property, hdeclarations, hproperty⟩ :=
    property_names_kept hclasses hnode hstyle rfl "px"
  obtain ⟨-, -, hscript⟩ := hproperty backgroundColor
  have hname : property = "background-color" := by
    rw [(hscript (by decide)).2 (by decide), backgroundColor.styleProperty_name rfl]
    decide
  refine ⟨hclasses, hnode, hstyle, rfl, r, hr, ?_⟩
  rw [hdeclarations, hname]
  decide +kernel

/-- Words of one letter each. -/
def letters : PropertyName := ⟨false, ['x'], [['y'], ['z']], by decide⟩

def vendorTransform : PropertyName := ⟨true, "webkit".toList, ["transform".toList], by decide⟩

/-- In a script, words of one letter after the first run together. The hyphen of a vendor is in neither
spelling. -/
theorem property_names_not_kept :
    (letters.name = "x-y-z" ∧ letters.scriptName = "xYZ" ∧
      styleProperty letters.scriptName = "x-yz" ∧ styleProperty letters.scriptName ≠ letters.name) ∧
    vendorTransform.name = "-webkit-transform" ∧ vendorTransform.scriptName = "WebkitTransform" ∧
      styleProperty vendorTransform.name ≠ vendorTransform.name ∧
      styleProperty vendorTransform.scriptName ≠ vendorTransform.name := by
  decide +kernel

end ViewWriter.Analysis
