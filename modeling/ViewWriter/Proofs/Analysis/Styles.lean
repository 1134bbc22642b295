import ViewWriter.Analysis.Style
import ViewWriter.Markup.Render
import ViewWriter.Proofs.Name.Case
import ViewWriter.Proofs.Name.Characters
import ViewWriter.Proofs.Name.Fresh
import ViewWriter.Proofs.Table
import ViewWriter.Proofs.Template.Loops

/-! Style classes and rules. A node has a class if it is styled at all, and a rule if it has a
declaration that is not empty. -/

namespace ViewWriter.Analysis

open ViewWriter.Schema ViewWriter.Text

variable {config : Config} {prefixName : Option String} {taken : List String} {unit : String}
  {records : List Record} {node : Record} {classes : Table String} {className : String}

lemma exists_class (h : className ∈ (classNamesFrom prefixName taken records).map (·.2)) :
    ∃ type id, className = Name.styleClass prefixName type id ∨
      ∃ n : ℕ, className = Name.styleClass prefixName type id ++ "-" ++ toString n := by
  induction records generalizing taken with
  | nil => cases h
  | cons r rest ih =>
    rw [classNamesFrom] at h
    split_ifs at h
    · exact ih h
    · rcases List.mem_cons.1 h with rfl | h
      · have hsearch := Name.search_fresh
          (Name.numbered_inj (Name.styleClass prefixName r.type r.id ++ "-")) taken
          (Name.styleClass prefixName r.type r.id)
        exact ⟨r.type, r.id, hsearch.found_cases⟩
      · exact ih h

lemma mem_keys_classNamesFrom {id : String} :
    id ∈ (classNamesFrom prefixName taken records).keys ↔
      ∃ r ∈ records, r.id = id ∧ r.style ≠ [] := by
  induction records generalizing taken with
  | nil => simp [classNamesFrom, Table.keys]
  | cons r rest ih =>
    rw [classNamesFrom]
    split_ifs with hstyle
    · rw [ih]
      simp [List.isEmpty_iff.1 hstyle]
    · have hstyle : r.style ≠ [] := fun h => hstyle (List.isEmpty_iff.2 h)
      rw [Table.keys, List.map_cons, List.mem_cons, ← Table.keys, ih]
      simp [hstyle, eq_comm]

lemma classNames_cases (h : classNames config records = .ok classes) :
    (∃ p, config.stylePrefix = .ok p ∧ classes = classNamesFrom p [] records) ∨
      classes = [] ∧ ∀ r ∈ records, r.style = [] := by
  rw [classNames] at h
  split_ifs at h with hplain
  · cases h
    exact .inr ⟨rfl, by simpa [List.all_eq_true] using hplain⟩
  · obtain ⟨p, hp, rfl⟩ := map_eq_ok_iff.1 h
    exact .inl ⟨p, hp, rfl⟩

lemma mem_keys_classNames (h : classNames config records = .ok classes) {id : String} :
    id ∈ classes.keys ↔ ∃ r ∈ records, r.id = id ∧ r.style ≠ [] := by
  rcases classNames_cases h with ⟨p, -, rfl⟩ | ⟨rfl, hplain⟩
  · exact mem_keys_classNamesFrom
  · constructor
    · exact fun hid => by cases hid
    · rintro ⟨r, hr, -, hstyle⟩
      exact absurd (hplain r hr) hstyle

lemma exists_class_of_get? (h : classNames config records = .ok classes) {id : String}
    (hget : classes.get? id = some className) : ∃ p type id', config.stylePrefix = .ok p ∧
      (className = Name.styleClass p type id' ∨
        ∃ n : ℕ, className = Name.styleClass p type id' ++ "-" ++ toString n) := by
  rcases classNames_cases h with ⟨p, hp, rfl⟩ | ⟨rfl, -⟩
  · obtain ⟨type, id', hname⟩ := exists_class (List.mem_map.2 ⟨_, Table.mem_of_get? hget, rfl⟩)
    exact ⟨p, type, id', hp, hname⟩
  · cases hget

lemma className_ne_empty (h : classNames config records = .ok classes) {id : String}
    (hget : classes.get? id = some className) : className ≠ "" := by
  obtain ⟨p, type, id', -, rfl | ⟨n, rfl⟩⟩ := exists_class_of_get? h hget
  · exact Name.styleClass_ne_empty p type id'
  · simp

lemma exists_styleClass_iff (h : classNames config records = .ok classes)
    (hdistinct : (records.map (·.id)).Nodup) (hnode : node ∈ records) :
    (∃ c, Markup.Dialect.styleClassOf classes node = some c) ↔ node.style ≠ [] := by
  have hkey : node.id ∈ classes.keys ↔ node.style ≠ [] := by
    rw [mem_keys_classNames h]
    constructor
    · rintro ⟨r, hr, hid, hstyle⟩
      rwa [List.inj_on_of_nodup_map hdistinct hr hnode hid] at hstyle
    · exact fun hstyle => ⟨node, hnode, rfl, hstyle⟩
  rw [← hkey]
  constructor
  · rintro ⟨c, hc⟩
    exact Table.mem_keys_of_mem (Table.mem_of_get? (Option.filter_eq_some_iff.1 hc).1)
  · intro hmem
    obtain ⟨c, hc⟩ := Table.exists_get?_of_mem hmem
    exact ⟨c, Option.filter_eq_some_iff.2 ⟨hc, by simpa using className_ne_empty h hc⟩⟩

lemma oneLine_className (h : classNames config records = .ok classes)
    (hnamespace : ∀ p, config.stylePrefix = .ok (some p) → OneLine p) {id : String}
    (hget : classes.get? id = some className) : OneLine className := by
  obtain ⟨p, type, id', hp, hname⟩ := exists_class_of_get? h hget
  have hclass : OneLine (Name.styleClass p type id') :=
    Name.oneLine_styleClass (fun q hq => hnamespace q (hq ▸ hp)) type id'
  obtain rfl | ⟨n, rfl⟩ := hname
  · exact hclass
  · exact (hclass.append (by decide)).append (oneLine_repr n)

/-- A style of a node whose keys and texts stand on one line. -/
def PlainStyle (style : Table Json) : Prop := ∀ e ∈ style, OneLine e.1 ∧ e.2.Unbroken

instance : DecidablePred PlainStyle := fun style =>
  inferInstanceAs (Decidable (∀ e ∈ style, OneLine e.1 ∧ e.2.Unbroken))

lemma oneLine_styleProperty {name : String} (h : OneLine name) : OneLine (styleProperty name) := by
  rw [styleProperty]
  split_ifs
  · exact h
  · exact Name.oneLine_kebab name

lemma oneLine_styleValue (hunit : OneLine unit) {v : Json} (h : v.Unbroken) (property : String) :
    OneLine (styleValue property v unit) := by
  have hnumber (n : Number) : OneLine (styleValue.number property unit n) := by
    rw [styleValue.number]
    split_ifs
    · exact oneLine_number n
    · exact (oneLine_number n).append hunit
  cases v with
  | bool b => cases b <;> (rw [styleValue]; decide)
  | int i => exact hnumber (.int i)
  | float x => exact hnumber (.float x)
  | null | str | arr | obj => exact h.display

lemma oneLine_styleDeclarations (hunit : OneLine unit) {style : Table Json} (h : PlainStyle style) :
    ∀ d ∈ styleDeclarations unit style, OneLine d.1 ∧ OneLine d.2 := by
  intro d hd
  obtain ⟨e, he, rfl⟩ := List.mem_map.1 hd
  obtain ⟨hkey, hvalue⟩ := h e (List.mem_filter.1 he).1
  exact ⟨oneLine_styleProperty hkey, oneLine_styleValue hunit hvalue _⟩

lemma mem_styleRules {r : StyleRule} :
    r ∈ styleRules unit classes records ↔ ∃ node ∈ records, ∃ className,
      classes.get? node.id = some className ∧ styleDeclarations unit node.style ≠ [] ∧
      r = ⟨node.id, className, styleDeclarations unit node.style⟩ := by
  simp only [styleRules, List.mem_filterMap, Option.bind_eq_some_iff]
  refine exists_congr fun node => and_congr_right fun _ => exists_congr fun className =>
    and_congr_right fun _ => ?_
  split_ifs with hempty
  · simp [List.isEmpty_iff.1 hempty]
  · rw [Option.some.injEq, eq_comm]
    simp only [List.isEmpty_iff] at hempty
    simp [hempty]

lemma oneLined_styleRules (h : classNames config records = .ok classes)
    (hnamespace : ∀ p, config.stylePrefix = .ok (some p) → OneLine p) (hunit : OneLine unit)
    (hstyle : ∀ r ∈ records, PlainStyle r.style) :
    ∀ r ∈ styleRules unit classes records, r.rule.OneLined := by
  intro r hr
  obtain ⟨node, hnode, className, hget, -, rfl⟩ := mem_styleRules.1 hr
  exact ⟨OneLine.append (s := ".") (by decide) (oneLine_className h hnamespace hget),
    oneLine_styleDeclarations hunit (hstyle node hnode)⟩

lemma styleDeclarations_eq_nil_iff {style : Table Json} :
    styleDeclarations unit style = [] ↔ ∀ e ∈ style, isEmptyValue e.2 = true := by
  rw [styleDeclarations, List.map_eq_nil_iff, List.filter_eq_nil_iff]
  simp

lemma styleRules_ne_nil_iff (h : classNames config records = .ok classes) :
    styleRules unit classes records ≠ [] ↔
      ∃ node ∈ records, ∃ e ∈ node.style, isEmptyValue e.2 = false := by
  constructor
  · intro hne
    obtain ⟨r, hr⟩ := List.exists_mem_of_ne_nil _ hne
    obtain ⟨node, hnode, -, -, hdeclarations, -⟩ := mem_styleRules.1 hr
    obtain ⟨e, he, hvalue⟩ : ∃ e ∈ node.style, isEmptyValue e.2 = false := by
      simpa [styleDeclarations_eq_nil_iff] using hdeclarations
    exact ⟨node, hnode, e, he, hvalue⟩
  · rintro ⟨node, hnode, e, he, hvalue⟩
    have hdeclarations : styleDeclarations unit node.style ≠ [] := fun hnil => by
      simp [styleDeclarations_eq_nil_iff.1 hnil e he] at hvalue
    have hkey : node.id ∈ classes.keys :=
      (mem_keys_classNames h).2 ⟨node, hnode, rfl, List.ne_nil_of_mem he⟩
    obtain ⟨className, hget⟩ := Table.exists_get?_of_mem hkey
    exact List.ne_nil_of_mem (mem_styleRules.2 ⟨node, hnode, className, hget, hdeclarations, rfl⟩)

end ViewWriter.Analysis

/-! Class names of nodes. Each is searched for among those that nodes before it do not have, so that
they tell the styled nodes apart. -/

namespace ViewWriter.Analysis

open ViewWriter.Schema ViewWriter.Text

def styled (records : List Record) : List Record := records.filter (!·.style.isEmpty)

/-- The class name that a node has unless another has it already. -/
def naturalClass (prefixName : Option String) (r : Record) : String :=
  Name.styleClass prefixName r.type r.id

def numberedClass (prefixName : Option String) (r : Record) (n : ℕ) : String :=
  naturalClass prefixName r ++ "-" ++ toString n

variable {config : Config} {prefixName : Option String} {taken : List String} {unit : String}
  {records : List Record} {r : Record} {classes : Table String}

/-- Classes for nodes one after the other. Each is found by a search among those that are not taken. -/
inductive Searched (prefixName : Option String) : List String → List Record → Table String → Prop
  | nil {taken : List String} : Searched prefixName taken [] []
  | cons {taken : List String} {r : Record} {rest : List Record} {c : String} {others : Table String} :
      Name.Search taken (numberedClass prefixName r) 2 (naturalClass prefixName r) c →
      Searched prefixName (c :: taken) rest others →
      Searched prefixName taken (r :: rest) ((r.id, c) :: others)

lemma searched_classNamesFrom (taken : List String) (records : List Record) :
    Searched prefixName taken (styled records) (classNamesFrom prefixName taken records) := by
  induction records generalizing taken with
  | nil => exact .nil
  | cons r rest ih =>
    rw [styled, classNamesFrom]
    split_ifs with hstyle
    · rw [List.filter_cons_of_neg (by simpa using hstyle)]
      exact ih taken
    · rw [List.filter_cons_of_pos (by simpa using hstyle)]
      refine .cons (Name.search_fresh (fun m n h => ?_) taken _) (ih _)
      exact Name.numbered_inj _ m n h

namespace Searched

variable {nodes : List Record}

lemma keys (h : Searched prefixName taken nodes classes) : classes.keys = nodes.map (·.id) := by
  induction h with
  | nil => rfl
  | cons _ _ ih =>
    rw [Table.keys, List.map_cons, List.map_cons, ← Table.keys, ih]

lemma searches (h : Searched prefixName taken nodes classes) :
    Name.Searches taken (classes.map (·.2)) := by
  induction h with
  | nil => exact .nil
  | cons hsearch _ ih => exact .cons hsearch ih

lemma nodup (h : Searched prefixName taken nodes classes) : (classes.map (·.2)).Nodup :=
  h.searches.nodup

lemma unique {others : Table String} (h : Searched prefixName taken nodes classes)
    (hothers : Searched prefixName taken nodes others) : classes = others := by
  induction h generalizing others with
  | nil =>
    cases hothers
    rfl
  | cons hsearch _ ih =>
    cases hothers with
    | cons hother hothers =>
      obtain rfl := hsearch.unique hother
      rw [ih hothers]

lemma isNamed (hnames : ∀ q, prefixName = some q → Name.IsNamed q)
    (h : Searched prefixName taken nodes classes) : ∀ c ∈ classes.map (·.2), Name.IsNamed c := by
  induction h with
  | nil => exact fun _ hc => by cases hc
  | @cons _ r _ c _ hsearch _ ih =>
    rw [List.map_cons, List.forall_mem_cons]
    have hnatural : Name.IsNamed (naturalClass prefixName r) :=
      Name.isNamed_styleClass hnames r.type r.id
    refine ⟨?_, ih⟩
    obtain rfl | ⟨n, rfl⟩ := hsearch.found_cases
    · exact hnatural
    · exact (hnatural.append (by decide)).append (Name.isNamed_toString n)

end Searched

lemma mem_styled : r ∈ styled records ↔ r ∈ records ∧ r.style ≠ [] := by
  simp [styled]

lemma searched_classNames (hp : config.stylePrefix = .ok prefixName)
    (h : classNames config records = .ok classes) : Searched prefixName [] (styled records) classes := by
  rcases classNames_cases h with ⟨p, hp', rfl⟩ | ⟨rfl, hplain⟩
  · cases hp.symm.trans hp'
    exact searched_classNamesFrom [] records
  · have hnone : styled records = [] := by
      rw [styled, List.filter_eq_nil_iff]
      intro r hr
      simp [hplain r hr]
    rw [hnone]
    exact .nil

/-- A styled node has a class, which is what the markup gives it. -/
lemma exists_class_of_styled (h : classNames config records = .ok classes) (hr : r ∈ styled records) :
    ∃ c, classes.get? r.id = some c ∧ Markup.Dialect.styleClassOf classes r = some c ∧ c ≠ "" := by
  obtain ⟨hmem, hstyle⟩ := mem_styled.1 hr
  obtain ⟨c, hc⟩ := Table.exists_get?_of_mem ((mem_keys_classNames h).2 ⟨r, hmem, rfl, hstyle⟩)
  have hne := className_ne_empty h hc
  exact ⟨c, hc, Option.filter_eq_some_iff.2 ⟨hc, by simpa using hne⟩, hne⟩

/-- A node with a style that has a value. -/
def declares (r : Record) : Bool := r.style.any fun e => !isEmptyValue e.2

lemma ids_styleRules (h : classNames config records = .ok classes) :
    (styleRules unit classes records).map (·.nodeId) = (records.filter declares).map (·.id) := by
  have hrule : ∀ r ∈ records, ((classes.get? r.id).bind fun className =>
      let declarations := styleDeclarations unit r.style
      if declarations.isEmpty then none else some (StyleRule.mk r.id className declarations)).map
        (·.nodeId) = if declares r then some r.id else none := by
    intro r hr
    have hempty : styleDeclarations unit r.style = [] ↔ declares r = false := by
      rw [styleDeclarations_eq_nil_iff, declares]
      simp
    by_cases hdeclares : declares r = true
    · have hstyled : r ∈ styled records := by
        refine mem_styled.2 ⟨hr, fun hnil => ?_⟩
        rw [declares, hnil] at hdeclares
        cases hdeclares
      obtain ⟨c, hc, -⟩ := exists_class_of_styled h hstyled
      have hne : styleDeclarations unit r.style ≠ [] := fun hnil =>
        Bool.false_ne_true ((hempty.1 hnil).symm.trans hdeclares)
      simp [hc, hdeclares, hne]
    · have hnil := hempty.2 (eq_false_of_ne_true hdeclares)
      cases hget : classes.get? r.id <;> simp [hdeclares, hnil]
  rw [styleRules, List.map_filterMap, List.filterMap_congr hrule]
  clear hrule h
  induction records with
  | nil => rfl
  | cons r rest ih => by_cases hdeclares : declares r = true <;> simp [hdeclares, ih]

lemma selector_of_mem {rule : StyleRule} (h : rule ∈ styleRules unit classes records) :
    ∃ c, (rule.nodeId, c) ∈ classes ∧ rule.selector = "." ++ c := by
  obtain ⟨node, -, c, hget, -, rfl⟩ := mem_styleRules.1 h
  exact ⟨c, Table.mem_of_get? hget, rfl⟩

end ViewWriter.Analysis
