import ViewWriter.Proofs.Generator.Computing
import ViewWriter.Proofs.Generator.DeclaredNames
import ViewWriter.Proofs.Generator.Subjects
import ViewWriter.Proofs.Name.Camel

/-! The lists of declarations. Each has the entries whose names come first, in the order of the nodes
and of their entries, under names that scripts can declare. -/

namespace ViewWriter

open ViewWriter.Text ViewWriter.Schema ViewWriter.Analysis

open ViewWriter.Name.Sanitizer (variableName)

namespace Analysis

/-- A name that a script can declare. -/
structure Declarable (name : String) : Prop where
  spelled : Name.isAsciiIdentifier name.toList
  free : lower name ∉ Name.reservedWords ++ Name.protectedNames

/-- Names that are all different, each of which a script can declare. -/
structure DeclarableNames (names : List String) : Prop where
  nodup : names.Nodup
  declarable : ∀ name ∈ names, Declarable name

variable {names : List String} {entries : List (Table Json)}

lemma exists_variable_of_mem (hnames : names = (firsts variableOf? entries).filterMap variableOf?) :
    ∀ name ∈ names, ∃ given, name = variableName given := by
  subst hnames
  intro name hname
  obtain ⟨entry, -, hname⟩ := List.mem_filterMap.1 hname
  obtain ⟨given, -, rfl⟩ := Option.map_eq_some_iff.1 hname
  exact ⟨given, rfl⟩

lemma declarableNames_of_firsts
    (hnames : names = (firsts variableOf? entries).filterMap variableOf?) : DeclarableNames names where
  nodup := hnames ▸ nodup_firsts variableOf? entries
  declarable name hname := by
    obtain ⟨given, rfl⟩ := exists_variable_of_mem hnames name hname
    exact ⟨Name.isAsciiIdentifier_variableName given, Name.notMem_kept_variableName given⟩

lemma mapM_firsts_variables {α : Type} {ofEntry : Table Json → Option α} {made : α → String}
    (hname : ∀ entry, (ofEntry entry).map made = variableOf? entry) (entries : List (Table Json)) :
    (firsts variableOf? entries).mapM ofEntry =
      some ((firsts variableOf? entries).filterMap ofEntry) := by
  refine mapM_firsts (fun entry => ?_) entries
  rw [← hname, Option.isSome_map]

lemma nodup_setters (records : List Record) : ((stateVariables records).map (·.setter)).Nodup := by
  have hnames := names_of_stateVariables records
  have hsetters : (stateVariables records).map (·.setter) =
      ((stateVariables records).map (·.name)).map Name.setter := List.map_map.symm
  rw [hsetters]
  refine List.Nodup.map_on (fun a ha b hb h => ?_) (declarableNames_of_firsts hnames).nodup
  obtain ⟨given, rfl⟩ := exists_variable_of_mem hnames a ha
  obtain ⟨other, rfl⟩ := exists_variable_of_mem hnames b hb
  exact (Name.setter_inj (Name.startsSmall_variableName given) (Name.startsSmall_variableName other)).1 h

end Analysis

/-- The lists of state variables, properties and functions of a subject are made, entry by entry, of
those entries of its nodes that have a name of which no entry before them has the form of a variable.
In each list the names are all different, are identifiers and, in small letters, neither reserved words
nor names of globals, and the setters of the state variables are all different too. If all functions
have parameters that can be listed, then there is such a list of functions. -/
theorem Generator.declarations_are_firsts {g : Generator} {s : Subject} (hs : s.Standing) {t : Tree}
    (ht : s.Shows t) :
    ((∀ entry ∈ declared t.records "functions" "name" "body",
        isListable (Json.member entry "params")) → ∃ found, functions t.records = .ok found) ∧
    ∀ o p, g.parts s o = .ok p →
      (firsts variableOf? (declared t.records "state" "name" "initial")).mapM
          StateVariable.ofEntry? = some p.state ∧
      (firsts variableOf? (declared t.records "propDefs" "name" "type")).mapM
          Property.ofEntry? = some p.props ∧
      (firsts variableOf? (declared t.records "functions" "name" "body")).mapM
          Function.ofEntry = .ok p.functions ∧
      DeclarableNames (p.state.map (·.name)) ∧ DeclarableNames (p.props.map (·.name)) ∧
      DeclarableNames (p.functions.map (·.name)) ∧ (p.state.map (·.setter)).Nodup := by
  refine ⟨exists_functions, fun o p hp => ?_⟩
  obtain ⟨d, unit, classes, -, hparts⟩ := partsOf_shown hs ht hp
  have hfunctions := hparts.functions
  rw [hparts.state, hparts.props]
  refine ⟨?_, ?_, ?_, declarableNames_of_firsts (names_of_stateVariables t.records),
    declarableNames_of_firsts (names_of_properties t.records),
    declarableNames_of_firsts (names_of_functions hfunctions), nodup_setters t.records⟩
  · rw [stateVariables_eq, mapM_firsts_variables name_of_ofEntry_state]
  · rw [properties_eq, mapM_firsts_variables name_of_ofEntry_property]
  · rw [← functions_eq, hfunctions]

/-- Nodes that give several names twice, in different spellings. -/
def namesakes : Tree :=
  .node ⟨"a", "div", [
    ("state", .obj [("count", .int 0), ("Count", .int 1), ("", .int 2), ("class", .int 3)]),
    ("functions", .arr [.obj [("name", .str "add one"), ("params", .arr [.str "n"])], .int 5]),
    ("propDefs", .obj [("title", .str "string")])], [], .null⟩ [
    .node ⟨"b", "div", [
      ("state", .arr [.obj [("name", .str "1st")], .obj [("name", .str "COUNT")]]),
      ("functions", .obj [("addOne", .str "")])], [], .null⟩ []]

theorem Generator.declarations_are_firsts_namesakes :
    ∃ r g p, Registry.create {} (.arr [.str "react"]) (.layers .null) .null = .ok r ∧
      r.resolve none = .ok g ∧ g.parts (.component (.tree namesakes)) {} = .ok p ∧
      p.state.map (fun x => (x.name, x.setter)) =
        [("count", "setCount"), ("class_", "setClass_"), ("value_1st", "setValue_1st")] ∧
      p.props.map (·.name) = ["title"] ∧
      p.functions.map (fun f => (f.name, f.params)) = [("addOne", ["n"])] ∧
      (p.state.map (·.setter)).Nodup ∧ (∃ found, functions namesakes.records = .ok found) := by
  obtain ⟨r, g, v, code, hr, hg, hview, -⟩ :=
    Generator.exists_code (s := .component (.tree namesakes)) (o := {}) (fun _ _ _ => true) rfl rfl
      (by decide +kernel)
  obtain ⟨p, hp, -⟩ := map_eq_ok_iff.1 hview
  have hs : Subject.Standing (.component (.tree namesakes)) := fun a ha => by cases ha
  obtain ⟨t, -, -, -, ht, -⟩ := exists_partsOf hs hp
  obtain rfl := ht.of_toTree rfl
  obtain ⟨hlisted, hlists⟩ := declarations_are_firsts (g := g) hs ht
  obtain ⟨hstate, hprops, hfunctions, -, -, -, hsetters⟩ := hlists {} p hp
  refine ⟨r, g, p, hr, hg, hp, ?_, ?_, ?_, hsetters, hlisted (by decide +kernel)⟩
  · have hvalue : ((firsts variableOf? (declared namesakes.records "state" "name" "initial")).mapM
        StateVariable.ofEntry?).map (·.map fun x => (x.name, x.setter)) =
          some [("count", "setCount"), ("class_", "setClass_"), ("value_1st", "setValue_1st")] := by
      decide +kernel
    rw [hstate] at hvalue
    exact Option.some.inj hvalue
  · have hvalue : ((firsts variableOf? (declared namesakes.records "propDefs" "name" "type")).mapM
        Property.ofEntry?).map (·.map (·.name)) = some ["title"] := by
      decide +kernel
    rw [hprops] at hvalue
    exact Option.some.inj hvalue
  · have hvalue : (((firsts variableOf? (declared namesakes.records "functions" "name" "body")).mapM
        Function.ofEntry).map (·.map fun f => (f.name, f.params))).toOption =
          some [("addOne", ["n"])] := by
      decide +kernel
    rw [hfunctions] at hvalue
    exact Option.some.inj hvalue

end ViewWriter

/-! Identifiers of a component. Its imports, properties, state variables, setters and functions are
declared in one file. Names of one of these kinds differ, and names of two kinds may be the same. -/

namespace ViewWriter

open ViewWriter.Text ViewWriter.Schema ViewWriter.Analysis ViewWriter.Template

open ViewWriter.Name.Sanitizer (variableName)

/-- What a component declares a name as. -/
inductive Role where
  | imported
  | property
  | state
  | setter
  | function
deriving DecidableEq

/-- The names that the nodes of a component bring into its file. -/
inductive Introduces (records : List Record) : Role → String → Prop
  | imported {name : String} : Binds records name → Introduces records .imported name
  | property {given : String} :
      Gives records "propDefs" "type" given → Introduces records .property (variableName given)
  | state {given : String} :
      Gives records "state" "initial" given → Introduces records .state (variableName given)
  | setter {given : String} : Gives records "state" "initial" given →
      Introduces records .setter (Name.setter (variableName given))
  | function {given : String} :
      Gives records "functions" "body" given → Introduces records .function (variableName given)

/-- The identifier that a script reads where a name is written. -/
def identifier (name : String) : String := String.ofList (Name.withoutFinalBreak name.toList)

/-- No identifier has two roles, and none is that of two names. -/
def Unambiguous (records : List Record) : Prop :=
  ∀ role name other otherName, Introduces records role name → Introduces records other otherName →
    identifier name = identifier otherName → role = other ∧ name = otherName

def roles : List Role := [.imported, .property, .state, .setter, .function]

namespace Analysis.Parts

def namesOf (p : Parts) : Role → List String
  | .imported => p.imports.map (·.name)
  | .property => p.props.map (·.name)
  | .state => p.state.map (·.name)
  | .setter => p.state.map (·.setter)
  | .function => p.functions.map (·.name)

def declarations (p : Parts) : List (Role × String) :=
  roles.flatMap fun role => (p.namesOf role).map (Prod.mk role)

def identifiers (p : Parts) : List String := p.declarations.map fun d => identifier d.2

end Analysis.Parts

/-- A line of the text declares a name in a role. -/
def DeclaresAs (content : String) : Role → String → Prop
  | .imported, name => ImportsName content name
  | .property, name => TakesProperty content name
  | .state, name => DeclaresState content name
  | .setter, name => ∃ state, Name.setter state = name ∧ DeclaresState content state
  | .function, name => DeclaresFunction content name

namespace Analysis

variable {dialect : Markup.Dialect} {unit : String} {config : Config} {classes : Table String}
  {t : Tree} {p : Parts} {role : Role} {name : String}

lemma mem_declarations_iff : (role, name) ∈ p.declarations ↔ name ∈ p.namesOf role := by
  have hrole : role ∈ roles := by cases role <;> decide
  simp only [Parts.declarations, List.mem_flatMap, List.mem_map, Prod.mk.injEq]
  constructor
  · rintro ⟨_, -, _, hname, rfl, rfl⟩
    exact hname
  · intro hname
    exact ⟨role, hrole, name, hname, rfl, rfl⟩

lemma PartsOf.mem_namesOf_iff (h : PartsOf dialect unit config classes t p) :
    name ∈ p.namesOf role ↔ Introduces t.records role name := by
  cases role with
  | imported =>
    rw [Parts.namesOf, List.mem_map, h.binds]
    exact ⟨.imported, fun hname => by cases hname; assumption⟩
  | property =>
    rw [Parts.namesOf, h.props, List.mem_map, exists_property]
    constructor
    · rintro ⟨given, hgiven, rfl⟩
      exact .property hgiven
    · rintro ⟨⟩
      exact ⟨_, by assumption, rfl⟩
  | state =>
    rw [Parts.namesOf, h.state, List.mem_map, exists_stateVariable]
    constructor
    · rintro ⟨given, hgiven, rfl⟩
      exact .state hgiven
    · rintro ⟨⟩
      exact ⟨_, by assumption, rfl⟩
  | setter =>
    rw [Parts.namesOf, h.state, List.mem_map]
    constructor
    · rintro ⟨x, hx, rfl⟩
      obtain ⟨given, hgiven, hname⟩ := exists_stateVariable.1 ⟨x, hx, rfl⟩
      rw [StateVariable.setter, ← hname]
      exact .setter hgiven
    · rintro ⟨⟩
      rename_i given hgiven
      obtain ⟨x, hx, hname⟩ := exists_stateVariable.2 ⟨given, hgiven, rfl⟩
      exact ⟨x, hx, congrArg Name.setter hname⟩
  | function =>
    rw [Parts.namesOf, List.mem_map, exists_function h.functions]
    constructor
    · rintro ⟨given, hgiven, rfl⟩
      exact .function hgiven
    · rintro ⟨⟩
      exact ⟨_, by assumption, rfl⟩

lemma PartsOf.nodup_namesOf (h : PartsOf dialect unit config classes t p) (role : Role) :
    (p.namesOf role).Nodup := by
  cases role with
  | imported =>
    obtain ⟨sections, himports⟩ := h.imports
    exact nodup_imports himports
  | property =>
    rw [Parts.namesOf, h.props, names_of_properties]
    exact nodup_firsts _ _
  | state =>
    rw [Parts.namesOf, h.state, names_of_stateVariables]
    exact nodup_firsts _ _
  | setter =>
    rw [Parts.namesOf, h.state]
    exact nodup_setters t.records
  | function =>
    rw [Parts.namesOf, names_of_functions h.functions]
    exact nodup_firsts _ _

lemma PartsOf.nodup_declarations (h : PartsOf dialect unit config classes t p) :
    p.declarations.Nodup := by
  refine List.nodup_flatMap.2 ⟨fun role _ => ?_, ?_⟩
  · exact (h.nodup_namesOf role).map fun _ _ heq => (Prod.mk.inj heq).2
  · refine List.Pairwise.imp (fun {role other} hne d hd hother => ?_)
      (by decide : List.Pairwise (· ≠ ·) roles)
    obtain ⟨name, -, rfl⟩ := List.mem_map.1 hd
    obtain ⟨otherName, -, heq⟩ := List.mem_map.1 hother
    exact hne (congrArg Prod.fst heq).symm

/-- The identifiers of a component are all different if and only if none has two roles. -/
lemma PartsOf.nodup_identifiers_iff (h : PartsOf dialect unit config classes t p) :
    p.identifiers.Nodup ↔ Unambiguous t.records := by
  rw [Parts.identifiers, List.nodup_map_iff_inj_on h.nodup_declarations]
  simp only [Prod.forall, mem_declarations_iff, h.mem_namesOf_iff, Prod.mk.injEq]
  exact ⟨fun hinj role name other otherName hname hother => hinj role name hname other otherName hother,
    fun hinj role name hname other otherName hother => hinj role name other otherName hname hother⟩

end Analysis

namespace Generator

variable {config : Config} {v : View} {files : Table Artifact} {r : Registry}

lemma declaresAs_of_mem (hr : r.Stocks (ofFramework .react config)) (hpage : v.page = false)
    (hfiles : (ofFramework .react config).files (r.freeze.engine (ofFramework .react config)) v =
      .ok files)
    (hnames : ∀ role ≠ .imported, ∀ name ∈ v.parts.namesOf role, OneLine name)
    (hvariables : ∀ name ∈ v.parts.namesOf .state ++ v.parts.namesOf .function,
      Name.isAsciiIdentifier name.toList) :
    ∃ main, files.get? "main" = some main ∧ ∀ role, ∀ name ∈ v.parts.namesOf role,
      OneLine name → DeclaresAs main.content role name := by
  obtain ⟨fields, source, text, hfields, hsource, htext, hmain⟩ := exists_main hr hfiles
  obtain ⟨main, hsame, himports⟩ := files_main .react hr hfiles
  cases hmain.symm.trans hsame
  rw [compile_reactMain hsource] at htext
  have hstate {x : StateVariable} (hx : x ∈ v.parts.state) : DeclaresState (tidy text) x.name :=
    declares_state hfields htext hx
      (hvariables _ (List.mem_append_left _ (List.mem_map_of_mem hx)))
  refine ⟨_, hmain, fun role name hname hline => ?_⟩
  cases role with
  | imported =>
    obtain ⟨i, hi, rfl⟩ := List.mem_map.1 hname
    exact himports i hi hline
  | property =>
    obtain ⟨x, hx, rfl⟩ := List.mem_map.1 hname
    refine ⟨_, ⟨x, hx, rfl⟩, takes_properties hfields htext hpage (List.ne_nil_of_mem hx) ?_⟩
    exact fun y hy => hnames .property (by decide) _ (List.mem_map_of_mem hy)
  | state =>
    obtain ⟨x, hx, rfl⟩ := List.mem_map.1 hname
    exact hstate hx
  | setter =>
    obtain ⟨x, hx, rfl⟩ := List.mem_map.1 hname
    exact ⟨x.name, rfl, hstate hx⟩
  | function =>
    obtain ⟨x, hx, rfl⟩ := List.mem_map.1 hname
    exact declares_function hfields htext hx
      (hvariables _ (List.mem_append_right _ (List.mem_map_of_mem hx)))

end Generator

lemma Introduces.isAsciiIdentifier {records : List Record} {role : Role} {name : String}
    (h : Introduces records role name) (hrole : role = .state ∨ role = .function) :
    Name.isAsciiIdentifier name.toList = true := by
  cases h with
  | state | function => exact Name.isAsciiIdentifier_variableName _
  | imported | property | setter => simp at hrole

lemma Introduces.oneLine {records : List Record} {role : Role} {name : String}
    (h : Introduces records role name) (hrole : role ≠ .imported) : OneLine name := by
  have hvariable (given : String) := Name.oneLine_of_identifier (Name.isAsciiIdentifier_variableName given)
  cases h with
  | imported => exact absurd rfl hrole
  | property | state | function => exact (hvariable _).1
  | setter => exact (hvariable _).2

namespace Registry

/-- A component declares the names that its nodes introduce, each on a line of its main file if it has
no line break. Its identifiers are all different if and only if the nodes introduce none in two roles,
and none under two names. -/
theorem identifiers_distinct_iff {folder : Folder} {frameworks active : Json} {settings : Settings}
    {r : Registry} (hr : create folder frameworks settings active = .ok r) {s : Subject}
    (hs : s.Standing) (hpage : s.isPage = false) {o : Options} {g : Generator}
    (hg : r.resolve o.framework = .ok g) (hreact : g.framework = .react) {v : View}
    (hview : g.view s o = .ok v) :
    ∃ t files main, s.Shows t ∧ g.files (r.freeze.engine g) v = .ok files ∧
      files.get? "main" = some main ∧
      (v.parts.identifiers.Nodup ↔ Unambiguous t.records) ∧
      (∀ role name, (role, name) ∈ v.parts.declarations ↔ Introduces t.records role name) ∧
      (∀ role name, Introduces t.records role name → OneLine name →
        DeclaresAs main.content role name) ∧
      (o.optimize.isGiven = false → ∀ code, (r.generate s o).2 = .ok code → code.files = files) := by
  have hstocks := stocks_create hr g (mem_of_resolve hg)
  obtain ⟨f, config, rfl, -⟩ := id hstocks
  rw [framework_ofFramework] at hreact
  subst hreact
  obtain ⟨p, hp, hparts⟩ := map_eq_ok_iff.1 hview
  obtain ⟨t, d, unit, classes, ht, -, hp⟩ := Generator.exists_partsOf hs hp
  have hnot : v.page = false := by rw [← hparts]; exact hpage
  -- the view of a component keeps all its parts, apart from the name
  have hdeclarations : v.parts.declarations = p.declarations := by
    rw [← hparts, Generator.viewOf, hpage]
    rfl
  have hnames (role : Role) (name : String) :
      name ∈ v.parts.namesOf role ↔ Introduces t.records role name := by
    rw [← mem_declarations_iff, hdeclarations, mem_declarations_iff, hp.mem_namesOf_iff]
  obtain ⟨files, hfiles⟩ := Generator.exists_files hstocks hnot
  obtain ⟨main, hmain, hlines⟩ := Generator.declaresAs_of_mem hstocks hnot hfiles
    (fun role hrole name hname => ((hnames role name).1 hname).oneLine hrole) (fun name hname => by
      rw [List.mem_append, hnames, hnames] at hname
      exact hname.elim (·.isAsciiIdentifier (.inl rfl)) (·.isAsciiIdentifier (.inr rfl)))
  refine ⟨t, files, main, ht, hfiles, hmain, ?_, fun role name => ?_, fun role name hname =>
    hlines role name ((hnames role name).2 hname), fun ho code hcode => ?_⟩
  · rw [Parts.identifiers, hdeclarations]
    exact hp.nodup_identifiers_iff
  · rw [mem_declarations_iff, hnames]
  · exact Except.ok.inj ((files_of_view hg hview ho hcode).symm.trans hfiles)

def tally : Tree :=
  .node ⟨"a", "Card", [("state", .obj [("count", .int 0)]), ("functions", .obj [("addOne", .str "")]),
    ("propDefs", .obj [("title", .str "string")])], [], .null⟩ []

theorem identifiers_distinct_iff_tally :
    ∃ r g v files main, create {} (.arr [.str "react"]) (.layers .null) .null = .ok r ∧
      r.resolve none = .ok g ∧ g.view (.component (.tree tally)) {} = .ok v ∧
      g.files (r.freeze.engine g) v = .ok files ∧ files.get? "main" = some main ∧
      v.parts.identifiers = ["Card", "title", "count", "setCount", "addOne"] ∧
      Unambiguous tally.records ∧ ImportsName main.content "Card" ∧
      TakesProperty main.content "title" ∧ DeclaresState main.content "count" ∧
      DeclaresFunction main.content "addOne" := by
  let declared : List (Role × String) := [(.imported, "Card"), (.property, "title"),
    (.state, "count"), (.setter, "setCount"), (.function, "addOne")]
  obtain ⟨r, g, v, code, hr, hg, hview, hcheck, -, hreact, -⟩ :=
    Generator.exists_code (s := .component (.tree tally)) (o := {})
      (fun _ _ v => v.parts.declarations == declared) rfl rfl (by decide +kernel)
  have hs : Subject.Standing (.component (.tree tally)) := fun a ha => by cases ha
  obtain ⟨t, files, main, ht, hfiles, hmain, hdistinct, hroles, hlines, -⟩ :=
    identifiers_distinct_iff hr hs rfl hg hreact hview
  obtain rfl := ht.of_toTree rfl
  have hdeclarations : v.parts.declarations = declared := beq_iff_eq.1 hcheck
  have hidentifiers :
      v.parts.identifiers = ["Card", "title", "count", "setCount", "addOne"] := by
    rw [Parts.identifiers, hdeclarations]
    decide +kernel
  have hline (d : Role × String) (hd : d ∈ declared) (hname : OneLine d.2) :
      DeclaresAs main.content d.1 d.2 := by
    rw [← hdeclarations] at hd
    exact hlines d.1 d.2 ((hroles d.1 d.2).1 hd) hname
  refine ⟨r, g, v, files, main, hr, hg, hview, hfiles, hmain, hidentifiers,
    hdistinct.1 (hidentifiers ▸ by decide), ?_, ?_, ?_, ?_⟩
  · exact hline (.imported, "Card") (by decide) (by decide)
  · exact hline (.property, "title") (by decide) (by decide)
  · exact hline (.state, "count") (by decide) (by decide)
  · exact hline (.function, "addOne") (by decide) (by decide)

def twofold : Tree :=
  .node ⟨"a", "div", [("propDefs", .obj [("x", .str "string")]), ("state", .obj [("x", .int 0)])], [],
    .null⟩ []

/-- A name that is given to a property and to a state variable is declared twice in one function. -/
theorem identifier_declared_twice :
    ∃ r g v code main, create {} (.arr [.str "react"]) (.layers .null) .null = .ok r ∧
      r.resolve none = .ok g ∧ g.framework = .react ∧
      g.view (.component (.tree twofold)) {} = .ok v ∧
      (r.generate (.component (.tree twofold)) {}).2 = .ok code ∧
      code.files.get? "main" = some main ∧ v.parts.identifiers = ["x", "x", "setX"] ∧
      ¬ v.parts.identifiers.Nodup ∧
      HasLine main.content "export default function GeneratedComponent(\x7b x \x7d) \x7b" ∧
      HasLine main.content "  const [x, setX] = useState(0);" := by
  let check (v : View) : Bool := v.parts.identifiers == ["x", "x", "setX"]
  let text := "import \x7b useState \x7d from 'react';\n\n\n" ++
    "export default function GeneratedComponent(\x7b x \x7d) \x7b\n" ++
    "  const [x, setX] = useState(0);\n\n  return (\n    <div />\n  );\n\x7d\n"
  obtain ⟨r, g, v, code, main, hr, hg, hreact, hview, hcheck, hcode, hmain, hcontent⟩ :=
    Generator.exists_main_code (s := .component (.tree twofold)) (o := {}) check text rfl rfl
      (by decide +kernel)
  have hidentifiers : v.parts.identifiers = ["x", "x", "setX"] := beq_iff_eq.1 hcheck
  refine ⟨r, g, v, code, main, hr, hg, hreact, hview, hcode, hmain, hidentifiers, ?_, ?_, ?_⟩
  · rw [hidentifiers]
    decide
  all_goals
    rw [hcontent, hasLine_tidy_iff]
    simp only [text, String.toList_append]
    repeat rw [String.toList_ofList]
    decide +kernel

end Registry

end ViewWriter
