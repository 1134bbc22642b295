import ViewWriter.Proofs.Analysis.Declarations
import ViewWriter.Proofs.Generator.MainFile
import ViewWriter.Proofs.Name.Camel
import ViewWriter.Proofs.Template.Loops

/-! Declared names. The main file of a component declares every name that its nodes give, in the form
of a variable. -/

namespace ViewWriter

open ViewWriter.Text ViewWriter.Schema ViewWriter.Analysis ViewWriter.Template

open ViewWriter.Name.Sanitizer (variableName)

/-- A line of the text declares a state variable and its setter. -/
def DeclaresState (content name : String) : Prop :=
  HasLine content ("  const [" ++ name ++ ", " ++ Name.setter name ++ "] = useState")

def DeclaresFunction (content name : String) : Prop := HasLine content ("  const " ++ name ++ " = (")

/-- The properties as they are taken out of the properties of a component. -/
def propertyPattern (ps : List Property) : String :=
  "\x7b " ++ join ", " (ps.map (·.pattern)) ++ " \x7d"

/-- A line of the text takes properties apart, and the name is among them. -/
def TakesProperty (content name : String) : Prop :=
  ∃ ps : List Property, (∃ p ∈ ps, p.name = name) ∧ LineHas content ("(" ++ propertyPattern ps)

section Heads

variable {helpers : Table Helper} {context : Json} {fields : Table Json} {name setter : String}
  {index : ℕ}

def stateHead : List Node := [
  .text "  const [", .interpolation "item.name", .text ", ", .interpolation "item.setter",
  .text "] = useState"]

def functionHead : List Node := [.text "  const ", .interpolation "item.name", .text " = ("]

lemma render_stateHead (hname : fields.get? "name" = some (.str name))
    (hsetter : fields.get? "setter" = some (.str setter)) :
    renderAll helpers (loopContext context (.obj fields) index) stateHead =
      .ok ("  const [" ++ name ++ ", " ++ setter ++ "] = useState") := by
  have hitem : resolvePath "item.name" (loopContext context (.obj fields) index) = .ok (.str name) :=
    resolve_item "name" rfl hname index
  have hset : resolvePath "item.setter" (loopContext context (.obj fields) index) =
      .ok (.str setter) :=
    resolve_item "setter" rfl hsetter index
  simp only [stateHead, renderAll, Node.render, hitem, hset, Except.map, stringify, bind, Except.bind,
    pure, Except.pure, String.append_empty, String.append_assoc]

lemma render_functionHead (hname : fields.get? "name" = some (.str name)) :
    renderAll helpers (loopContext context (.obj fields) index) functionHead =
      .ok ("  const " ++ name ++ " = (") := by
  have hitem : resolvePath "item.name" (loopContext context (.obj fields) index) = .ok (.str name) :=
    resolve_item "name" rfl hname index
  simp only [functionHead, renderAll, Node.render, hitem, Except.map, stringify, bind, Except.bind,
    pure, Except.pure, String.append_empty, String.append_assoc]

end Heads

namespace Generator

variable {config : Config} {v : View} {fields : Table Json} {helpers : Table Helper} {text : String}

lemma declares_state (h : (ofFramework .react config).contextOf v = .ok fields)
    (htext : renderAll helpers (.obj fields) (Target.React.mainNodes v.page) = .ok text)
    {x : StateVariable} (hx : x ∈ v.parts.state) (hname : Name.isAsciiIdentifier x.name.toList) :
    DeclaresState (tidy text) x.name := by
  have hstate : resolvePath "state" (.obj fields) =
      .ok (objects (v.parts.state.map (·.toFields))) :=
    (resolve_context h "state" rfl (by decide)
      (by simp [View.toContext_eq, Parts.toContext])).2
  have hstands : standsAt [Target.React.stateLoop] true (Target.React.mainNodes v.page) = true := by
    cases v.page <;> decide
  have hget : x.toFields.get? "name" = some (.str x.name) ∧
      x.toFields.get? "setter" = some (.str x.setter) := by
    simp [StateVariable.toFields, Table.get?_cons]
  obtain ⟨hline, hsetter⟩ := Name.oneLine_of_identifier hname
  refine hasLine_item stateHead hstands (by decide) (by decide) hstate
    (List.mem_map_of_mem (List.mem_map_of_mem hx)) htext
    (fun place => render_stateHead hget.1 hget.2) ?_
  rw [String.toList_append]
  refine IsSolid.prepend (by decide) (OneLine.append (.append (.append ?_ hline) ?_) hsetter)
  · decide
  · decide

lemma mem_withGaps (preceded : Bool) {blocks : List (Table Json)} {block : Table Json}
    (h : block ∈ blocks) :
    ∃ gap items, Target.React.withGaps preceded blocks = .arr items ∧
      .obj (block.set "gap" gap) ∈ items := by
  obtain ⟨i, hi, rfl⟩ := List.getElem_of_mem h
  exact ⟨_, _, rfl, List.mem_map_of_mem (List.mem_mapIdx.2 ⟨i, hi, rfl⟩)⟩

lemma declares_function (h : (ofFramework .react config).contextOf v = .ok fields)
    (htext : renderAll helpers (.obj fields) (Target.React.mainNodes v.page) = .ok text)
    {x : Function} (hx : x ∈ v.parts.functions) (hname : Name.isAsciiIdentifier x.name.toList) :
    DeclaresFunction (tidy text) x.name := by
  obtain ⟨gap, items, hitems, hitem⟩ :=
    mem_withGaps (!v.parts.state.isEmpty || !v.parts.effects.isEmpty)
      (List.mem_map_of_mem hx : x.toFields ∈ v.parts.functions.map (·.toFields))
  have hfunctions : resolvePath "functions" (.obj fields) = .ok (.arr items) := by
    refine resolve_added h (rfl : Target.React.additions config v = .ok _) "functions" rfl ?_
    simp [hitems]
  have hstands : standsAt [Target.React.functionLoop] true (Target.React.mainNodes v.page) = true := by
    cases v.page <;> decide
  have hget : (x.toFields.set "gap" gap).get? "name" = some (.str x.name) := by
    simp [Function.toFields, Table.get?_cons]
  obtain ⟨hline, -⟩ := Name.oneLine_of_identifier hname
  refine hasLine_item functionHead hstands (by decide) (by decide) hfunctions hitem htext
    (fun place => render_functionHead hget) ?_
  rw [String.toList_append]
  exact IsSolid.prepend (by decide) (OneLine.append (s := "  const ") (by decide) hline)

lemma oneLine_pattern {p : Property} (h : OneLine p.name) : OneLine p.pattern := by
  rw [Property.pattern]
  split
  · exact (h.append (by decide)).append (Json.oneLine_compact .unicode _)
  · exact h

lemma takes_properties (h : (ofFramework .react config).contextOf v = .ok fields)
    (htext : renderAll helpers (.obj fields) (Target.React.mainNodes v.page) = .ok text)
    (hpage : v.page = false) (hne : v.parts.props ≠ [])
    (hnames : ∀ p ∈ v.parts.props, OneLine p.name) :
    LineHas (tidy text) ("(" ++ propertyPattern v.parts.props) := by
  have hsignature : resolvePath "propsSignature" (.obj fields) =
      .ok (.str (Target.React.signature v)) :=
    resolve_added h (rfl : Target.React.additions config v = .ok _) "propsSignature"
      rfl (by simp)
  have hinfix : Target.React.parameterNodes <:+: Target.React.mainNodes v.page := by
    rw [hpage]
    exact ⟨_, _, rfl⟩
  obtain ⟨before, written, after, hwritten, htext⟩ := exists_written hinfix htext
  obtain ⟨rest, hrest⟩ : ∃ rest, Target.React.signature v = propertyPattern v.parts.props ++ rest :=
    ⟨_, if_neg (by simpa using hne)⟩
  simp only [Target.React.parameterNodes, renderAll, Node.render, hsignature, hrest, Except.map,
    stringify, bind, Except.bind, pure, Except.pure, Except.ok.injEq] at hwritten
  subst hwritten
  refine lineHas_tidy ?_ before (rest.toList ++ ") \x7b\n".toList ++ after) ?_
  · have hpatterns : OneLine (join ", " (v.parts.props.map (·.pattern))) := by
      refine .join (by decide) fun piece hpiece => ?_
      obtain ⟨p, hp, rfl⟩ := List.mem_map.1 hpiece
      exact oneLine_pattern (hnames p hp)
    rw [propertyPattern, ← String.append_assoc, String.toList_append]
    refine IsSolid.prepend (by decide) (OneLine.append (s := "(") (by decide) ?_)
    exact OneLine.append (s := "\x7b ") (by decide) hpatterns
  · rw [htext]
    simp

end Generator

namespace Registry

/-- Every name that a node gives to a state variable or a function is declared in the form of a
variable, and so is every name of a property unless the subject is a page, which takes none. This
form is the name itself if and only if it is spelled like a variable. -/
theorem declared_names_bound {folder : Folder} {frameworks active : Json} {settings : Settings}
    {r : Registry} (hr : create folder frameworks settings active = .ok r) {s : Subject}
    (hs : s.Standing) {o : Options} {g : Generator} (hg : r.resolve o.framework = .ok g)
    (hreact : g.framework = .react) {v : View} (hview : g.view s o = .ok v) :
    (∃ t, s.Shows t ∧ ∀ files, g.files (r.freeze.engine g) v = .ok files →
      ∃ main, files.get? "main" = some main ∧ ∀ name,
        (Gives t.records "state" "initial" name → DeclaresState main.content (variableName name)) ∧
        (Gives t.records "functions" "body" name →
          DeclaresFunction main.content (variableName name)) ∧
        (s.isPage = false → Gives t.records "propDefs" "type" name →
          TakesProperty main.content (variableName name)) ∧
        (variableName name = name ↔ Name.IsVariable name)) ∧
    (o.optimize.isGiven = false → ∀ code, (r.generate s o).2 = .ok code →
      g.files (r.freeze.engine g) v = .ok code.files) := by
  have hstocks := stocks_create hr g (mem_of_resolve hg)
  obtain ⟨f, config, rfl, -⟩ := id hstocks
  rw [framework_ofFramework] at hreact
  subst hreact
  obtain ⟨p, hp, rfl⟩ := map_eq_ok_iff.1 hview
  obtain ⟨t, d, unit, classes, ht, -, hparts⟩ := Generator.exists_partsOf hs hp
  refine ⟨⟨t, ht, fun files hfiles => ?_⟩, fun ho code => files_of_view hg hview ho⟩
  · obtain ⟨fields, source, text, hfields, hsource, htext, hmain⟩ := Generator.exists_main hstocks hfiles
    rw [Generator.compile_reactMain hsource] at htext
    refine ⟨_, hmain, fun name => ⟨fun hgives => ?_, fun hgives => ?_, fun hpage hgives => ?_,
      Name.variableName_eq_self_iff⟩⟩
    · obtain ⟨x, hx, hname⟩ := exists_stateVariable.2 ⟨name, hgives, rfl⟩
      rw [← hname]
      refine Generator.declares_state hfields htext (hparts.state ▸ hx) ?_
      rw [hname]
      exact Name.isAsciiIdentifier_variableName name
    · obtain ⟨x, hx, hname⟩ := (exists_function hparts.functions).2 ⟨name, hgives, rfl⟩
      rw [← hname]
      refine Generator.declares_function hfields htext hx ?_
      rw [hname]
      exact Name.isAsciiIdentifier_variableName name
    · obtain ⟨x, hx, hname⟩ := exists_property.2 ⟨name, hgives, rfl⟩
      have hprops : (Generator.viewOf (Generator.ofFramework .react config) p s.isPage o).parts.props =
          properties t.records := by
        rw [Generator.viewOf, hpage]
        exact hparts.props
      refine ⟨_, ⟨x, hprops ▸ hx, hname⟩, Generator.takes_properties hfields htext hpage ?_ ?_⟩
      · exact List.ne_nil_of_mem (hprops ▸ hx)
      · intro y hy
        rw [hprops] at hy
        obtain ⟨given, hgiven⟩ := name_of_mem_properties hy
        rw [hgiven]
        exact (Name.oneLine_of_identifier (Name.isAsciiIdentifier_variableName given)).1

def counter : Tree :=
  .node ⟨"a", "Counter", [("state", .obj [("count", .int 0)]), ("functions", .obj [("addOne", .str "")]),
    ("propDefs", .obj [("title", .str "string")])], [], .obj [("$bind", .str "count")]⟩ []

lemma gives_counter : Gives counter.records "state" "initial" "count" ∧
    Gives counter.records "functions" "body" "addOne" ∧
    Gives counter.records "propDefs" "type" "title" :=
  ⟨⟨Table.ofEntries [("name", .str "count"), ("initial", .int 0)],
      List.mem_flatMap.2 ⟨_, List.mem_cons_self, List.mem_cons_self⟩, by decide +kernel⟩,
    ⟨Table.ofEntries [("name", .str "addOne"), ("body", .str "")],
      List.mem_flatMap.2 ⟨_, List.mem_cons_self, List.mem_cons_self⟩, by decide +kernel⟩,
    ⟨Table.ofEntries [("name", .str "title"), ("type", .str "string")],
      List.mem_flatMap.2 ⟨_, List.mem_cons_self, List.mem_cons_self⟩, by decide +kernel⟩⟩

theorem declared_names_bound_counter :
    ∃ r g v code main, create {} (.arr [.str "react"]) (.layers .null) .null = .ok r ∧
      r.resolve none = .ok g ∧ g.view (.component (.tree counter)) {} = .ok v ∧
      (r.generate (.component (.tree counter)) {}).2 = .ok code ∧
      code.files.get? "main" = some main ∧ DeclaresState main.content "count" ∧
      DeclaresFunction main.content "addOne" ∧ TakesProperty main.content "title" := by
  obtain ⟨r, g, v, code, hr, hg, hview, -, hcode, hreact, -⟩ :=
    Generator.exists_code (s := .component (.tree counter)) (o := {}) (fun _ _ _ => true) rfl rfl
      (by decide +kernel)
  have hs : Subject.Standing (.component (.tree counter)) := fun a ha => by cases ha
  obtain ⟨⟨t, ht, hmain⟩, hfiles⟩ := declared_names_bound hr hs hg hreact hview
  obtain rfl := ht.of_toTree rfl
  obtain ⟨main, hmain, hnames⟩ := hmain _ (hfiles rfl code hcode)
  obtain ⟨hcount, haddOne, htitle⟩ := gives_counter
  have hsame : variableName "count" = "count" ∧ variableName "addOne" = "addOne" ∧
      variableName "title" = "title" := by
    decide +kernel
  have hstate := (hnames "count").1 hcount
  have hfunction := (hnames "addOne").2.1 haddOne
  have hproperty := (hnames "title").2.2.1 rfl htitle
  rw [hsame.1] at hstate
  rw [hsame.2.1] at hfunction
  rw [hsame.2.2] at hproperty
  exact ⟨r, g, v, code, main, hr, hg, hview, hcode, hmain, hstate, hfunction, hproperty⟩

def shown (name : String) : Tree :=
  .node ⟨"a", "div", [("state", .obj [(name, .str "")])], [], .obj [("$bind", .str name)]⟩ []

/-- A name with an underscore is shown as it is given and declared in another spelling. -/
theorem unbound_underscore :
    ∃ r g v code main, create {} (.arr [.str "react"]) (.layers .null) .null = .ok r ∧
      r.resolve none = .ok g ∧ g.framework = .react ∧
      g.view (.component (.tree (shown "user_name"))) {} = .ok v ∧
      (r.generate (.component (.tree (shown "user_name"))) {}).2 = .ok code ∧
      code.files.get? "main" = some main ∧ Name.isAsciiIdentifier "user_name".toList ∧
      Name.Sanitizer.script.isKept "user_name" = false ∧
      v.parts.markup = "<div>\x7buser_name\x7d</div>" ∧ DeclaresState main.content "userName" ∧
      ¬ HasLine main.content "  const [user_name" := by
  let check (v : View) : Bool := v.parts.markup == "<div>\x7buser_name\x7d</div>"
  let text := "import \x7b useState \x7d from 'react';\n\n\n" ++
    "export default function GeneratedComponent() \x7b\n" ++
    "  const [userName, setUserName] = useState(\"\");\n\n  return (\n" ++
    "    <div>\x7buser_name\x7d</div>\n  );\n\x7d\n"
  obtain ⟨r, g, v, code, main, hr, hg, hreact, hview, hcheck, hcode, hmain, hcontent⟩ :=
    Generator.exists_main_code (s := .component (.tree (shown "user_name"))) (o := {}) check text
      rfl rfl (by decide +kernel)
  refine ⟨r, g, v, code, main, hr, hg, hreact, hview, hcode, hmain, by decide, by decide +kernel,
    beq_iff_eq.1 hcheck, ?_, ?_⟩
  · have hstart : "  const [" ++ "userName" ++ ", " ++ Name.setter "userName" ++ "] = useState" =
        "  const [userName, setUserName] = useState" := by
      decide +kernel
    rw [hcontent, DeclaresState, hstart, hasLine_tidy_iff]
    simp only [text, String.toList_append]
    repeat rw [String.toList_ofList]
    decide +kernel
  · rw [hcontent, hasLine_tidy_iff]
    simp only [text, String.toList_append]
    repeat rw [String.toList_ofList]
    decide +kernel

end Registry

end ViewWriter
