import Mathlib.Tactic.Lemma
import Mathlib.Tactic.SplitIfs
import ViewWriter.Proofs.Number.Digits
import ViewWriter.Template.Scope

/-! Where paths lead. A path is followed to its end, or it leads nowhere, or it comes to a list with
digits that count no place. An operand is refused if it looks up such a path, or if it is a whole
number that cannot be read. -/

namespace ViewWriter.Template

open ViewWriter.Text

/-- A segment of digits, which stands for a place in a list. -/
structure IsPlace (segment : String) : Prop where
  ne_empty : segment ≠ ""
  digits : ∀ c ∈ segment.toList, isDigit c

inductive Leads : Json → List String → Json → Prop
  | here (v : Json) : Leads v [] v
  | member {fields : Table Json} {segment : String} {rest : List String} {v w : Json} :
      fields.get? segment = some v → Leads v rest w → Leads (.obj fields) (segment :: rest) w
  | place {items : List Json} {segment : String} {i : ℤ} {rest : List String} {v w : Json} :
      IsPlace segment → Number.integer? segment = some i → items[i.toNat]? = some v →
      Leads v rest w → Leads (.arr items) (segment :: rest) w

/-- A path that comes to a list with digits that are not read as a number. -/
def Stuck (v : Json) (path : List String) : Prop :=
  ∃ before segment rest items, path = before ++ segment :: rest ∧ Leads v before (.arr items) ∧
    IsPlace segment ∧ Number.integer? segment = none

/-- A path that leads nowhere. -/
structure Lost (v : Json) (path : List String) : Prop where
  no_end : ∀ w, ¬ Leads v path w
  not_stuck : ¬ Stuck v path

section Following

variable {v w x : Json} {segment : String} {path rest : List String} {e : Fault}

lemma isPlace_iff : (segment != "" && segment.toList.all isDigit) = true ↔ IsPlace segment := by
  rw [Bool.and_eq_true, bne_iff_ne, List.all_eq_true]
  exact ⟨fun h => ⟨h.1, h.2⟩, fun h => ⟨h.1, h.2⟩⟩

lemma Leads.singleton (h : Leads v [segment] w) (hw : Leads w rest x) :
    Leads v (segment :: rest) x := by
  cases h with
  | member hget hhere => cases hhere; exact .member hget hw
  | place hplace hread hget hhere => cases hhere; exact .place hplace hread hget hw

lemma leads_of_step (h : step v segment = .ok (some w)) : Leads v [segment] w := by
  rw [step.eq_def] at h
  split at h
  · exact .member (Except.ok.inj h) (.here w)
  · rename_i items
    split_ifs at h with hplace
    · unfold placeOf at h
      split at h
      · rename_i i hread
        exact .place (isPlace_iff.1 hplace) hread (by simpa [Except.map] using h) (.here w)
      · cases h
    · cases h
  · cases h

lemma step_error (h : step v segment = .error e) :
    ∃ items, v = .arr items ∧ IsPlace segment ∧ Number.integer? segment = none := by
  rw [step.eq_def] at h
  split at h
  · cases h
  · rename_i items
    split_ifs at h with hplace
    · unfold placeOf at h
      split at h
      · cases h
      · rename_i hread
        exact ⟨items, rfl, isPlace_iff.1 hplace, hread⟩
  · cases h

lemma Stuck.step (h : Leads v [segment] w) (hw : Stuck w rest) : Stuck v (segment :: rest) := by
  obtain ⟨before, place, after, items, rfl, hleads, hplace, hread⟩ := hw
  exact ⟨segment :: before, place, after, items, rfl, h.singleton hleads, hplace, hread⟩

lemma stuck_of_follow (h : follow v path = .error e) : Stuck v path := by
  induction path generalizing v with
  | nil => cases h
  | cons segment rest ih =>
    rw [follow] at h
    split at h
    · rename_i hstep
      obtain ⟨items, rfl, hplace, hread⟩ := step_error hstep
      exact ⟨[], segment, rest, items, rfl, .here _, hplace, hread⟩
    · cases h
    · rename_i w hstep
      exact .step (leads_of_step hstep) (ih h)

lemma follow_of_leads (h : Leads v path w) : follow v path = .ok (some w) := by
  induction h with
  | here v => rfl
  | member hget _ ih =>
    have hstep : step (.obj _) _ = .ok (some _) := congrArg Except.ok hget
    rw [follow, hstep]
    exact ih
  | @place items segment i rest v w hplace hread hget _ ih =>
    have hstep : step (.arr items) segment = .ok (some v) := by
      rw [step, if_pos (isPlace_iff.2 hplace), placeOf, hread, ← hget]
      rfl
    rw [follow, hstep]
    exact ih

lemma leads_of_follow (h : follow v path = .ok (some w)) : Leads v path w := by
  induction path generalizing v with
  | nil =>
    cases h
    exact .here _
  | cons segment rest ih =>
    rw [follow] at h
    split at h
    · cases h
    · cases h
    · rename_i u hstep
      exact (leads_of_step hstep).singleton (ih h)

end Following

section Paths

variable {context v : Json} {path : String}

lemma resolvePath_of_leads (h : Leads context (segments path) v) :
    resolvePath path context = .ok v := by
  rw [resolvePath, lookup, follow_of_leads h]
  rfl

lemma resolvePath_of_lost (h : Lost context (segments path)) :
    resolvePath path context = .ok .null := by
  rw [resolvePath, lookup]
  rcases hf : follow context (segments path) with e | _ | w
  · exact absurd (stuck_of_follow hf) h.not_stuck
  · rfl
  · exact absurd (leads_of_follow hf) (h.no_end w)

lemma exists_resolvePath (h : ¬ Stuck context (segments path)) :
    ∃ v, resolvePath path context = .ok v := by
  by_cases hv : ∃ v, Leads context (segments path) v
  · obtain ⟨v, hv⟩ := hv
    exact ⟨v, resolvePath_of_leads hv⟩
  · exact ⟨.null, resolvePath_of_lost ⟨not_exists.1 hv, h⟩⟩

lemma leads_of_resolvePath {items : List Json} (h : resolvePath path context = .ok (.arr items)) :
    Leads context (segments path) (.arr items) := by
  rw [resolvePath, lookup] at h
  rcases hf : follow context (segments path) with e | _ | w <;> rw [hf] at h
  · cases h
  · cases h
  · cases h
    exact leads_of_follow hf

end Paths

/-- Whether an operand is neither a quoted text nor a numeral nor a keyword. -/
structure IsLookup (operand : String) : Prop where
  unquoted : quotedInside? (trimmed operand).toList = none
  no_numeral : isNumeral (trimmed operand).toList = false
  no_keyword : keywords.lookup (trimmed operand) = none

/-- What is looked up while a template is rendered. -/
inductive Query where
  | path (path : String)
  | operand (operand : String)

def Query.Refused (context : Json) : Query → Prop
  | path p => Stuck context (segments p)
  | operand s =>
    (isNumeral (trimmed s).toList ∧ '.' ∉ (trimmed s).toList ∧
      Number.integer? (trimmed s) = none) ∨
    (IsLookup s ∧ Stuck context (segments (trimmed s)))

section Operands

variable {context : Json} {s operand : String}

lemma resolveOperand_lookup (h : IsLookup operand) :
    resolveOperand operand context = resolvePath (trimmed operand) context := by
  simp only [resolveOperand, h.unquoted, h.no_numeral, h.no_keyword, Bool.false_eq_true, if_false]

lemma eval_holds (h : IsLookup operand) {v : Json}
    (hv : resolvePath (trimmed operand) context = .ok v) :
    (Condition.holds operand).eval context = .ok v.isGiven := by
  rw [Condition.eval, resolveOperand_lookup h, hv]
  rfl

lemma numeral_point (h : isNumeral s.toList = true) (hp : '.' ∈ s.toList) :
    ∃ x, Number.real? s = some x := by
  obtain ⟨sign, rest, hs, hsign, hrest⟩ : ∃ sign rest, s.toList = sign ++ rest ∧
      (sign = [] ∨ sign = ['-']) ∧
      (if s.toList.head? == some '-' then s.toList.drop 1 else s.toList) = rest := by
    rcases hcs : s.toList with _ | ⟨c, cs⟩
    · exact ⟨[], [], rfl, .inl rfl, rfl⟩
    · by_cases hc : c = '-'
      · exact ⟨['-'], cs, by simp [hc], .inr rfl, by simp [hc]⟩
      · exact ⟨[], c :: cs, rfl, .inl rfl, by simp [hc]⟩
  have hpoint : '.' ∈ rest := by
    rw [hs, List.mem_append] at hp
    rcases hp with hp | hp
    · rcases hsign with rfl | rfl <;> simp at hp
    · exact hp
  rw [isNumeral, hrest] at h
  have hjoin := joinWith_splitOn '.' rest
  split at h
  · rename_i whole hsplit
    have hnot : '.' ∉ whole := notMem_of_splitOn (by rw [hsplit]; exact List.mem_cons_self)
    rw [hsplit] at hjoin
    exact absurd hpoint (by simpa [joinWith, ← hjoin] using hnot)
  · rename_i whole places hsplit
    rw [hsplit] at hjoin
    have hrest' : rest = whole ++ '.' :: places := by
      rw [← hjoin]
      simp [joinWith]
    simp only [Bool.and_eq_true, List.all_eq_true, Bool.not_eq_true',
      List.isEmpty_eq_false_iff] at h
    exact Number.exists_real? (hrest' ▸ hs) hsign h.1.1.2 h.1.1.1 h.2
  · cases h

lemma exists_numeral (h : isNumeral s.toList = true)
    (hread : '.' ∉ s.toList → Number.integer? s ≠ none) : ∃ v, numeral s = .ok v := by
  rw [numeral]
  by_cases hp : '.' ∈ s.toList
  · obtain ⟨x, hx⟩ := numeral_point h hp
    rw [if_pos (by simpa using hp), hx]
    exact ⟨_, rfl⟩
  · obtain ⟨i, hi⟩ := Option.ne_none_iff_exists'.1 (hread hp)
    rw [if_neg (by simpa using hp), hi]
    exact ⟨_, rfl⟩

lemma exists_resolveOperand (h : ¬ (Query.operand operand).Refused context) :
    ∃ v, resolveOperand operand context = .ok v := by
  obtain ⟨hnumeral, hlookup⟩ := not_or.1 h
  simp only [resolveOperand]
  split
  · exact ⟨_, rfl⟩
  · rename_i hquoted
    split_ifs with hn
    · exact exists_numeral hn fun hp hread => hnumeral ⟨hn, hp, hread⟩
    · split
      · exact ⟨_, rfl⟩
      · rename_i hkeyword
        have hname : IsLookup operand := ⟨hquoted, by simpa using hn, hkeyword⟩
        exact exists_resolvePath fun hstuck => hlookup ⟨hname, hstuck⟩

end Operands

end ViewWriter.Template
