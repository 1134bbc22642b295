import ViewWriter.Proofs.Script.Wrapper
import ViewWriter.Proofs.Table

/-! The lines of a block of imports, as they are read again. -/

namespace ViewWriter.Script

open ViewWriter.Text

def blockLine (indent : List Char) (text : String) : List Char := indent ++ (text.toList ++ ['\n'])

def eagerStatement (framework : Framework) (indent : List Char) (i : WeightedImport) : Statement :=
  match framework with
  | .angular => ⟨indent, ⟨false, none, none, [⟨i.name, i.name, false⟩], true⟩, '\'', i.source, true⟩
  | _ => ⟨indent, ⟨false, some i.name, none, [], false⟩, '\'', i.source, true⟩

/-- The function that loads components later, and the module that it comes from. -/
def loadingFunction? : Framework → Option (String × String)
  | .react => some ("lazy", "react")
  | .vue => some ("defineAsyncComponent", "vue")
  | _ => none

def primitiveStatement (indent : List Char) (name source : String) : Statement :=
  ⟨indent, ⟨false, none, none, [⟨name, name, false⟩], true⟩, '\'', source, true⟩

/-- A component whose name and source can be read again. -/
structure WeightedImport.IsRead (i : WeightedImport) : Prop where
  name : isIdentifier i.name.toList = true
  source_ne : i.source.toList ≠ []
  source : ∀ c ∈ i.source.toList, isQuote c = false ∧ c ≠ '\n'

section Lines

variable {framework : Framework} {indent : List Char} {i : WeightedImport} {s : Statement}

lemma Shape.IsValid.isWhole {s : Shape} {clause : List Char} (h : s.IsValid clause)
    (ending : List Char) : isWhole (s.text ++ ending) := by
  have hstop : (!isQuote s.quote && s.quote != ';') = false := by simp [h.quote]
  have hsplit : s.text ++ ending = s.indent ++ ("import".toList ++ (s.between ++
      s.quote :: (s.source ++ s.quote :: s.tail ++ ending))) := by
    simp [Shape.text]
  rw [hsplit, isWhole_eq h.indent, dropWhile_stop h.between hstop]
  simp [h.quote]

lemma Statement.isWhole_write (h : s.IsRead) (hne : s.clause.isEmpty = false) :
    isWhole s.write.toList := by
  rw [Statement.toList_write]
  exact (Statement.shape_isValid h hne).isWhole ['\n']

/-- A statement that was read and then written is read again in front of a margin, too. -/
lemma Statement.importAt?_margin (h : s.IsRead) (hne : s.clause.isEmpty = false)
    {margin ending rest : List Char} (hm : ∀ c ∈ margin, isMargin c) (he : IsEnd ending rest) :
    importAt? (s.shape.text ++ margin ++ (ending ++ rest)) =
      some ⟨some s.reread, s.shape.text ++ margin ++ ending, rest⟩ := by
  have hvalid : Shape.IsValid { s.shape with margin } s.clause.write.toList :=
    { shape_isValid h hne with margin := hm }
  have htext : ({ s.shape with margin } : Shape).text = s.shape.text ++ margin := by
    simp [Shape.text, Shape.tail, shape]
  have hfound := importAt?_text hvalid he
  rw [htext, Shape.statement, Clause.parse?_write h.clause hne] at hfound
  simpa [reread, shape] using hfound

lemma eagerStatement_isRead (framework : Framework) (hi : i.IsRead)
    (hindent : ∀ c ∈ indent, isMargin c) :
    (eagerStatement framework indent i).IsRead ∧
      (eagerStatement framework indent i).clause.isEmpty = false := by
  have hsource : ∀ c ∈ i.source.toList, (!isQuote c) = true := fun c hc => by
    simp [(hi.source c hc).1]
  cases framework with
  | angular =>
    refine ⟨⟨hindent, ⟨by simp [eagerStatement], by simp [eagerStatement], ?_⟩, rfl, hi.source_ne,
      hsource⟩, rfl⟩
    intro n hn
    obtain rfl := List.mem_singleton.1 hn
    exact ⟨hi.name, hi.name⟩
  | _ =>
    refine ⟨⟨hindent, ⟨?_, by simp [eagerStatement], by simp [eagerStatement]⟩, rfl, hi.source_ne,
      hsource⟩, rfl⟩
    intro d hd
    obtain rfl := Option.some.inj hd
    exact hi.name

lemma eagerStatement_write :
    (eagerStatement framework indent i).write.toList = blockLine indent (eagerLine framework i) := by
  cases framework <;>
    simp [eagerStatement, Statement.write, Clause.write, Named.write, eagerLine, blockLine, join,
      joinWith]

lemma componentBinding?_eager :
    componentBinding? framework (eagerStatement framework indent i).reread.clause = some i.name := by
  cases framework <;> simp [eagerStatement, Statement.reread, componentBinding?]

lemma exists_primitiveStatement {text : String} (h : primitive? framework = some text) :
    ∃ name source, loadingFunction? framework = some (name, source) ∧
      ∀ indent : List Char, (∀ c ∈ indent, isMargin c) →
      (primitiveStatement indent name source).IsRead ∧
      (primitiveStatement indent name source).shape.text = indent ++ text.toList ∧
      componentBinding? framework (primitiveStatement indent name source).reread.clause = none ∧
      ∀ i, ∃ front back,
        (lazyLine framework i).toList = front ++ ' ' :: (name.toList ++ '(' :: back) := by
  have hread : ∀ (indent : List Char) (name source : String), (∀ c ∈ indent, isMargin c) →
      isIdentifier name.toList → source.toList ≠ [] → (∀ c ∈ source.toList, (!isQuote c) = true) →
      (primitiveStatement indent name source).IsRead := by
    intro indent name source hindent hname hne hsource
    refine ⟨hindent, ⟨by simp [primitiveStatement], by simp [primitiveStatement], ?_⟩, rfl, hne, hsource⟩
    intro n hn
    obtain rfl := List.mem_singleton.1 hn
    exact ⟨hname, hname⟩
  cases framework with
  | react =>
    obtain rfl := Option.some.inj h
    refine ⟨"lazy", "react", rfl, fun indent hindent => ⟨hread indent _ _ hindent (by decide) (by decide)
      (List.all_eq_true.1 (by decide)), ?_, rfl, fun i => ?_⟩⟩
    · simp [primitiveStatement, Statement.shape, Shape.text, Shape.tail, Clause.write, Named.write, join,
        joinWith]
    · refine ⟨"const ".toList ++ i.name.toList ++ " =".toList,
        "() => import('".toList ++ i.source.toList ++ "'));".toList, ?_⟩
      simp [lazyLine]
  | vue =>
    obtain rfl := Option.some.inj h
    refine ⟨"defineAsyncComponent", "vue", rfl, fun indent hindent => ⟨hread indent _ _ hindent (by decide)
      (by decide) (List.all_eq_true.1 (by decide)), ?_, rfl, fun i => ?_⟩⟩
    · simp [primitiveStatement, Statement.shape, Shape.text, Shape.tail, Clause.write, Named.write, join,
        joinWith]
    · refine ⟨"const ".toList ++ i.name.toList ++ " =".toList,
        "() => import('".toList ++ i.source.toList ++ "'));".toList, ?_⟩
      simp [lazyLine]
  | angular => cases h
  | html => cases h

def wrapper (framework : Framework) (indent : List Char) (i : WeightedImport) : Wrapper :=
  match framework with
  | .react => ⟨indent, i.name.toList, "lazy(() => import('".toList, i.source.toList, "'))".toList, []⟩
  | .vue => ⟨indent, i.name.toList, "defineAsyncComponent(() => import('".toList, i.source.toList,
      "'))".toList, []⟩
  | .angular => ⟨indent, i.name.toList, "() => import('".toList, i.source.toList,
      "').then((module) => module.".toList ++ (i.name.toList ++ [')']), []⟩
  | .html => ⟨indent, i.name.toList, "() => import('".toList, i.source.toList,
      "').then((module) => module.".toList ++ ("default".toList ++ [')']), []⟩

lemma wrapper_isValid (framework : Framework) (hi : i.IsRead) (hindent : ∀ c ∈ indent, isMargin c) :
    (wrapper framework indent i).IsValid := by
  have hquote : '\'' ∉ i.source.toList := fun hmem =>
    absurd (hi.source _ hmem).1 (by decide)
  have hname := parts_of_isIdentifier hi.name
  have hvalid : ∀ {opening closing : List Char}, IsLoader opening closing →
      Wrapper.IsValid ⟨indent, i.name.toList, opening, i.source.toList, closing, []⟩ :=
    fun hl => ⟨hindent, hi.name, hl, hi.source_ne, hquote, by simp⟩
  cases framework with
  | react => exact hvalid .lazy
  | vue => exact hvalid .asyncComponent
  | angular => exact hvalid (.member hname.1 hname.2)
  | html => exact hvalid (.member (by decide) (List.all_eq_true.1 (by decide)))

lemma wrapper_text :
    (wrapper framework indent i).text ++ ['\n'] = blockLine indent (lazyLine framework i) := by
  cases framework <;>
    simp [blockLine, lazyLine, wrapper, Wrapper.text, Wrapper.head, Wrapper.tail]

end Lines

end ViewWriter.Script

/-! Regrouping component imports line by line. -/

namespace ViewWriter.Script

open ViewWriter.Text

/-- The known component with a name and a source. -/
def component? (weights : Table WeightedImport) (name source : String) : Option WeightedImport :=
  (weights.get? name).filter (·.source == source)

/-- The known component that a line imports, as the only name that it binds. -/
def importLine? (framework : Framework) (weights : Table WeightedImport) (l : List Char) :
    Option WeightedImport :=
  (lineStatement? l).bind fun s =>
    (componentBinding? framework s.clause).bind fun name => component? weights name s.source

/-- The known component that a line loads later. -/
def wrapperLine? (weights : Table WeightedImport) (l : List Char) : Option WeightedImport :=
  (lazyLineAt? l).bind fun m => component? weights m.value.name m.value.source

/-- The known component that a line binds. -/
def boundLine? (framework : Framework) (weights : Table WeightedImport) (l : List Char) :
    Option WeightedImport :=
  (importLine? framework weights l).or (wrapperLine? weights l)

/-- Whether a line imports the function that loads components later. -/
def isPrimitiveLine (framework : Framework) (l : List Char) : Bool :=
  (primitive? framework).any fun text => (textLineAt? text l).isSome

def isLoadingLine (framework : Framework) (weights : Table WeightedImport) (l : List Char) : Bool :=
  (boundLine? framework weights l).isSome || isPrimitiveLine framework l

/-- The known components that lines bind, the imported ones first. -/
def boundComponents (framework : Framework) (weights : Table WeightedImport)
    (ls : List (List Char)) : List WeightedImport :=
  distinct (ls.filterMap (importLine? framework weights) ++ ls.filterMap (wrapperLine? weights))

/-- The lines with their known components as one block in the place of the first loading line. -/
def regroupedLines (framework : Framework) (threshold : Number) (weights : Table WeightedImport)
    (ls : List (List Char)) : List (List Char) :=
  match ls.dropWhile (!isLoadingLine framework weights ·) with
  | [] => ls
  | first :: rest =>
    ls.takeWhile (!isLoadingLine framework weights ·) ++
      ((blockLines framework threshold (boundComponents framework weights ls)).map
          (blockLine (first.takeWhile isMargin)) ++
        rest.filter (!isLoadingLine framework weights ·))

section Starts

variable {l cs : List Char}

/-- What a line begins with after its margin tells imports and wrappers apart. -/
lemma head_of_importAt? {m : Match (Option Statement)} (h : importAt? l = some m) :
    (l.dropWhile isMargin).head? = some 'i' ∧
      ∀ s, m.value = some s → s.indent = l.takeWhile isMargin := by
  obtain ⟨s, clause, ending, hs, -, hv, -, rfl⟩ := exists_shape h
  have hsplit : s.text ++ (ending ++ m.rest) = s.indent ++ 'i' :: ("mport".toList ++ (s.between ++
      s.quote :: (s.source ++ s.quote :: s.tail)) ++ (ending ++ m.rest)) := by
    simp [Shape.text]
  rw [hsplit, dropWhile_stop hs.indent rfl, takeWhile_stop hs.indent rfl]
  refine ⟨rfl, fun st hst => ?_⟩
  obtain ⟨c, -, rfl⟩ := Option.map_eq_some_iff.1 (hv.symm.trans hst)
  rfl

lemma head_of_lazyLineAt? {m : Match LazyLine} (h : lazyLineAt? l = some m) :
    (l.dropWhile isMargin).head? = some 'c' ∧ m.value.indent = l.takeWhile isMargin := by
  obtain ⟨_, ending, ⟨w, hw, hv, rfl⟩, -, -, rfl⟩ := lazyLineAt?_endsLines.shape l m h
  have hsplit : w.text ++ (ending ++ m.rest) = w.indent ++ 'c' :: ("onst ".toList ++ (w.name ++
      (" = ".toList ++ w.opening)) ++ (w.source ++ w.tail) ++ (ending ++ m.rest)) := by
    simp [Wrapper.text, Wrapper.head]
  rw [hsplit, dropWhile_stop hw.indent rfl, takeWhile_stop hw.indent rfl, hv]
  exact ⟨rfl, rfl⟩

lemma lazyLineAt?_of_head (h : (l.dropWhile isMargin).head? ≠ some 'c') : lazyLineAt? l = none :=
  Option.eq_none_iff_forall_ne_some.2 fun _ hm => h (head_of_lazyLineAt? hm).1

lemma importAt?_of_head (h : (l.dropWhile isMargin).head? ≠ some 'i') : importAt? l = none :=
  Option.eq_none_iff_forall_ne_some.2 fun _ hm => h (head_of_importAt? hm).1

end Starts

section Spans

variable {framework : Framework} {weights : Table WeightedImport} {ls : List (List Char)}
  {code : String}

lemma knownSpan?_eq (name source : String) (span : Span) :
    knownSpan? weights name source span =
      (component? weights name source).map fun i => (i, span) := by
  rw [knownSpan?, component?]
  cases weights.get? name with
  | none => rfl
  | some i =>
    by_cases h : i.source == source <;> simp [h, Option.filter]

/-- The place of a line as a stretch. -/
def lineSpan (p : List Char × ℕ × ℕ) : Span := ⟨p.2.1, p.2.2, p.1.takeWhile isMargin⟩

lemma lineSpans_eq (chosen : List Char → Bool) (start : ℕ) (ls : List (List Char)) :
    lineSpans chosen start ls = (places start ls).filterMap fun p =>
      if chosen p.1 then some (lineSpan p) else none := by
  induction ls generalizing start with
  | nil => rfl
  | cons l ls ih =>
    rw [lineSpans_cons, places, List.filterMap_cons, ih]
    cases chosen l <;> rfl

lemma map_lineSpan {line? : List Char → Option WeightedImport} :
    ((places 0 ls).filterMap fun p => (line? p.1).map (·, lineSpan p)).map (·.2) =
      lineSpans (fun l => (line? l).isSome) 0 ls := by
  rw [List.map_filterMap, lineSpans_eq]
  refine List.filterMap_congr fun p hp => ?_
  cases line? p.1 <;> rfl

lemma map_lineValue {α β : Type} {line? : List Char → Option α} {place : List Char × ℕ × ℕ → β} :
    ((places 0 ls).filterMap fun p => (line? p.1).map (·, place p)).map (·.1) =
      ls.filterMap line? := by
  have hmap := List.filterMap_map (f := fun p : List Char × ℕ × ℕ => p.1) (g := line?)
    (l := places 0 ls)
  rw [map_places] at hmap
  rw [List.map_filterMap, hmap]
  refine List.filterMap_congr fun p hp => ?_
  cases h : line? p.1 <;> simp [h]

lemma primitive?_head {text : String} (h : primitive? framework = some text) :
    ∃ cs, text.toList = 'i' :: cs ∧ '\n' ∉ text.toList := by
  cases framework with
  | react =>
    obtain rfl := Option.some.inj h
    exact ⟨"mport \x7b lazy \x7d from 'react';".toList, by decide, by decide⟩
  | vue =>
    obtain rfl := Option.some.inj h
    exact ⟨"mport \x7b defineAsyncComponent \x7d from 'vue';".toList, by decide, by decide⟩
  | angular => cases h
  | html => cases h

lemma primitiveLine_decides {text : String} (h : primitive? framework = some text) (l : List Char) :
    Decides (textLineAt? text) (fun l => (textLineAt? text l).map (·.value)) l := by
  obtain ⟨cs, hcs, hbreak⟩ := primitive?_head h
  have hno : ∀ m : List Char, (∀ c ∈ m, isMargin c) → '\n' ∉ m := fun m hm hmem =>
    absurd (hm _ hmem) (by decide)
  refine (textLineAt?_endsLines hcs rfl).decides ?_
  rintro rest _ v ending rest' - ⟨margin, hv, hmargin, rfl⟩ - -
  simp only [List.mem_append, not_or]
  exact ⟨hno v hv, hbreak, hno margin hmargin⟩

lemma head_of_textLineAt? {text : String} (h : primitive? framework = some text) {l : List Char}
    {m : Match (List Char)} (hm : textLineAt? text l = some m) :
    (l.dropWhile isMargin).head? = some 'i' ∧ m.value = l.takeWhile isMargin := by
  obtain ⟨cs, hcs, -⟩ := primitive?_head h
  obtain ⟨_, ending, ⟨margin, hv, -, rfl⟩, -, -, rfl⟩ := (textLineAt?_endsLines hcs rfl).shape l m hm
  rw [hcs, List.append_assoc, List.append_assoc, List.cons_append, dropWhile_stop hv rfl,
    takeWhile_stop hv rfl]
  exact ⟨rfl, rfl⟩

lemma importSpans_eq (framework : Framework) (weights : Table WeightedImport) (hls : AreLines ls)
    (hwhole : ∀ l ∈ ls, isWhole l) (hcode : code.toList = ls.flatten) : importSpans framework weights code =
      (places 0 ls).filterMap fun p => (importLine? framework weights p.1).map (·, lineSpan p) := by
  rw [importSpans, imports, importPieces, hcode,
    pieces_lines hls fun l hl => isWhole.decides (hwhole l hl), found_lines, List.filterMap_filterMap,
    List.filterMap_filterMap]
  refine List.filterMap_congr fun p hp => ?_
  rw [importLine?, lineStatement?]
  cases hm : importAt? p.1 with
  | none => rfl
  | some m =>
    cases hs : m.value with
    | none => simp [hs]
    | some s =>
      have hindent := (head_of_importAt? hm).2 s hs
      simp only [Option.map_some, Option.bind_some, hs, knownSpan?_eq, hindent, Option.map_bind]
      rfl

lemma lazySpans_eq (hls : AreLines ls) (hsources : ∀ e ∈ weights, '\n' ∉ e.2.source.toList)
    (hcode : code.toList = ls.flatten) : lazySpans weights code =
      (places 0 ls).filterMap fun p => (wrapperLine? weights p.1).map (·, lineSpan p) := by
  have hnone : ∀ (v : LazyLine) (p : ℕ × ℕ), '\n' ∈ v.source.toList →
      knownSpan? weights v.name v.source ⟨p.1, p.2, v.indent⟩ = none := by
    intro v p hv
    rw [knownSpan?_eq, component?, Option.map_eq_none_iff, Option.filter_eq_none_iff]
    intro i hi hsource
    rw [beq_iff_eq] at hsource
    exact hsources _ (Table.mem_of_get? hi) (by rwa [hsource])
  rw [lazySpans, hcode]
  refine (found_lazyLines (f := fun x => knownSpan? weights x.1.name x.1.source
    ⟨x.2.1, x.2.2, x.1.indent⟩) hnone hls 0).trans ?_
  refine List.filterMap_congr fun p hp => ?_
  rw [wrapperLine?]
  cases hm : lazyLineAt? p.1 with
  | none => rfl
  | some m =>
    simp only [Option.bind_some, knownSpan?_eq, (head_of_lazyLineAt? hm).2]
    rfl

lemma primitiveSpans_eq (hls : AreLines ls) (hcode : code.toList = ls.flatten) :
    primitiveSpans framework code = lineSpans (isPrimitiveLine framework) 0 ls := by
  rw [lineSpans_eq, primitiveSpans]
  cases h : primitive? framework with
  | none => simp [isPrimitiveLine, h]
  | some text =>
    simp only [hcode, pieces_lines hls fun l _ => primitiveLine_decides h l, found_lines,
      List.map_filterMap]
    refine List.filterMap_congr fun p hp => ?_
    simp only [isPrimitiveLine, h, Option.any_some]
    cases hm : textLineAt? text p.1 with
    | none => rfl
    | some m => simp [(head_of_textLineAt? h hm).2, lineSpan]

/-! No line is of two kinds. -/

lemma lineStatement?_primitive {l : List Char} (h : isPrimitiveLine framework l) :
    ∃ name source indent, loadingFunction? framework = some (name, source) ∧
      lineStatement? l = some (primitiveStatement indent name source).reread ∧
      componentBinding? framework (primitiveStatement indent name source).reread.clause = none ∧
      ∀ i, ∃ front back,
        (lazyLine framework i).toList = front ++ ' ' :: (name.toList ++ '(' :: back) := by
  rw [isPrimitiveLine] at h
  cases hp : primitive? framework with
  | none => simp [hp] at h
  | some text =>
    rw [hp, Option.any_some, Option.isSome_iff_exists] at h
    obtain ⟨m, hm⟩ := h
    obtain ⟨cs, hcs, -⟩ := primitive?_head hp
    obtain ⟨name, source, hfunction, hstatement⟩ := exists_primitiveStatement hp
    obtain ⟨_, ending, ⟨margin, hv, hmargin, rfl⟩, he, -, rfl⟩ :=
      (textLineAt?_endsLines hcs rfl).shape l m hm
    obtain ⟨hread, htext, hbinding, hcalls⟩ := hstatement m.value hv
    have hfound := Statement.importAt?_margin hread rfl hmargin he
    rw [htext, List.append_assoc m.value] at hfound
    exact ⟨name, source, m.value, hfunction, by rw [lineStatement?, hfound, Option.bind_some],
      hbinding, hcalls⟩

lemma lineStatement?_of_primitive {l : List Char} (h : isPrimitiveLine framework l) : ∃ s,
    lineStatement? l = some s ∧ componentBinding? framework s.clause = none ∧
      ∀ name ∈ s.clause.locals, ∀ i, ∃ front back,
        (lazyLine framework i).toList = front ++ ' ' :: (name.toList ++ '(' :: back) := by
  obtain ⟨name, source, indent, -, hs, hbinding, hcalls⟩ := lineStatement?_primitive h
  refine ⟨_, hs, hbinding, fun bound hbound => ?_⟩
  obtain rfl : bound = name := by
    simpa [primitiveStatement, Statement.reread, Clause.locals] using hbound
  exact hcalls

lemma lazyLineAt?_of_statement {l : List Char} (h : (lineStatement? l).isSome) :
    lazyLineAt? l = none := by
  rw [lineStatement?] at h
  cases hm : importAt? l with
  | none => simp [hm] at h
  | some m => exact lazyLineAt?_of_head (by rw [(head_of_importAt? hm).1]; decide)

lemma wrapperLine?_of_statement {l : List Char} (h : (lineStatement? l).isSome) :
    wrapperLine? weights l = none := by
  rw [wrapperLine?, lazyLineAt?_of_statement h, Option.bind_none]

lemma wrapperLine?_of_import {l : List Char} (h : (importLine? framework weights l).isSome) :
    wrapperLine? weights l = none := by
  refine wrapperLine?_of_statement ?_
  cases hs : lineStatement? l with
  | none => simp [importLine?, hs] at h
  | some s => rfl

lemma boundLine?_of_primitive {l : List Char} (h : isPrimitiveLine framework l) :
    boundLine? framework weights l = none := by
  obtain ⟨s, hs, hbinding, -⟩ := lineStatement?_of_primitive h
  rw [boundLine?, importLine?, hs, Option.bind_some, hbinding,
    wrapperLine?_of_statement (Option.isSome_iff_exists.2 ⟨s, hs⟩)]
  rfl

lemma spans_perm (framework : Framework) (weights : Table WeightedImport) (ls : List (List Char)) :
    (lineSpans (fun l => (importLine? framework weights l).isSome) 0 ls ++
        lineSpans (fun l => (wrapperLine? weights l).isSome) 0 ls ++
          lineSpans (isPrimitiveLine framework) 0 ls).Perm
      (lineSpans (isLoadingLine framework weights) 0 ls) := by
  have hbound : (fun l => (importLine? framework weights l).isSome || (wrapperLine? weights l).isSome) =
      fun l => (boundLine? framework weights l).isSome := by
    funext l
    rw [boundLine?, Option.isSome_or]
  have hdisjoint : ∀ l ∈ ls, (importLine? framework weights l).isSome →
      ¬(wrapperLine? weights l).isSome := fun l _ hl => by simp [wrapperLine?_of_import hl]
  have hfirst := @lineSpans_perm ls 0 (fun l => (importLine? framework weights l).isSome)
    (fun l => (wrapperLine? weights l).isSome) hdisjoint
  rw [hbound] at hfirst
  refine (hfirst.append_right _).trans (lineSpans_perm fun l _ hl hprimitive => ?_)
  simp [boundLine?_of_primitive hprimitive] at hl

lemma distinct_concat (imports : List WeightedImport) (i : WeightedImport) :
    distinct (imports ++ [i]) = if (distinct imports).any (·.name == i.name) then distinct imports
      else distinct imports ++ [i] := by
  rw [distinct, List.foldl_append]
  rfl

lemma distinct_eq_nil_iff {imports : List WeightedImport} : distinct imports = [] ↔ imports = [] := by
  induction imports using List.reverseRecOn with
  | nil => simp [distinct]
  | append_singleton imports i ih =>
    rw [distinct_concat]
    by_cases h : (distinct imports).any (·.name == i.name)
    · have hne : distinct imports ≠ [] := by
        intro hnil
        simp [hnil] at h
      simp [h, hne]
    · simp [h]

lemma flatten_blockLines {threshold : Number} {indent : List Char} {imports : List WeightedImport} :
    (block framework threshold (String.ofList indent) imports).toList =
      ((blockLines framework threshold imports).map (blockLine indent)).flatten := by
  rw [block, toList_concat, List.flatMap_def, List.map_map]
  refine congrArg List.flatten (List.map_congr_left fun text _ => ?_)
  simp [blockLine]

lemma regroupedLines_split {threshold : Number} {front back : List (List Char)} {l : List Char}
    (hls : ls = front ++ l :: back) (hfront : ∀ m ∈ front, isLoadingLine framework weights m = false)
    (hl : isLoadingLine framework weights l = true) :
    regroupedLines framework threshold weights ls =
      front ++ ((blockLines framework threshold (boundComponents framework weights ls)).map
        (blockLine (l.takeWhile isMargin)) ++ back.filter (!isLoadingLine framework weights ·)) := by
  have hno : ∀ m ∈ front, (!isLoadingLine framework weights m) = true := fun m hm => by
    rw [hfront m hm]
    rfl
  have hstop : (!isLoadingLine framework weights l) = false := by rw [hl]; rfl
  have hdrop : ls.dropWhile (!isLoadingLine framework weights ·) = l :: back := by
    rw [hls, List.dropWhile_append_of_pos hno, List.dropWhile_cons_of_neg (by simp [hl])]
  have htake : ls.takeWhile (!isLoadingLine framework weights ·) = front := by
    rw [hls, List.takeWhile_append_of_pos hno, List.takeWhile_cons_of_neg (by simp [hl]),
      List.append_nil]
  rw [regroupedLines, hdrop, htake]

lemma map_known (hls : AreLines ls) (hwhole : ∀ l ∈ ls, isWhole l)
    (hsources : ∀ e ∈ weights, '\n' ∉ e.2.source.toList) (hcode : code.toList = ls.flatten) :
    (importSpans framework weights code ++ lazySpans weights code).map (·.1) =
      ls.filterMap (importLine? framework weights) ++ ls.filterMap (wrapperLine? weights) := by
  rw [importSpans_eq framework weights hls hwhole hcode, lazySpans_eq hls hsources hcode,
    List.map_append, map_lineValue, map_lineValue]

lemma mergeSort_loadingSpans (hls : AreLines ls) (hwhole : ∀ l ∈ ls, isWhole l)
    (hsources : ∀ e ∈ weights, '\n' ∉ e.2.source.toList) (hcode : code.toList = ls.flatten) :
    ((importSpans framework weights code ++ lazySpans weights code).map (·.2) ++
      primitiveSpans framework code).mergeSort (fun a b => a.first ≤ b.first) =
        lineSpans (isLoadingLine framework weights) 0 ls := by
  rw [importSpans_eq framework weights hls hwhole hcode, lazySpans_eq hls hsources hcode,
    List.map_append, map_lineSpan, map_lineSpan, primitiveSpans_eq hls hcode]
  exact mergeSort_spans (fun l hl => hls.ne_nil hl) (spans_perm framework weights ls)

/-- A block in the place of the first loading line. -/
lemma splice_loadingLines {s : Span} {spans : List Span} (hcode : code.toList = ls.flatten)
    (hlines : lineSpans (isLoadingLine framework weights) 0 ls = s :: spans) :
    ∃ front l back, ls = front ++ l :: back ∧
      (∀ m ∈ front, isLoadingLine framework weights m = false) ∧
      isLoadingLine framework weights l = true ∧ s.indent = l.takeWhile isMargin ∧
      ∀ block, (removeSpans code.toList (s :: spans)).take s.first ++ block ++
          (removeSpans code.toList (s :: spans)).drop s.first =
        front.flatten ++ (block ++ (back.filter (!isLoadingLine framework weights ·)).flatten) := by
  obtain ⟨front, l, back, hsplit, hfront, hl, hfirst, hindent, hspans⟩ := lineSpans_eq_cons hlines
  rw [Nat.zero_add] at hfirst
  have hcs : code.toList = front.flatten ++ (l :: back).flatten := by
    rw [hcode, hsplit, List.flatten_append]
  refine ⟨front, l, back, hsplit, hfront, hl, hindent, fun block => ?_⟩
  rw [hspans, hcs, hfirst, removeSpans_lineSpans, List.take_left, List.drop_left,
    List.filter_cons_of_neg (by simp [hl]), List.append_assoc]

/-- A script is regrouped line by line. -/
theorem regroupLoading_eq (framework : Framework) (threshold : Except Fault Number)
    (hls : AreLines ls) (hwhole : ∀ l ∈ ls, isWhole l)
    (hsources : ∀ e ∈ weights, '\n' ∉ e.2.source.toList) (hcode : code.toList = ls.flatten) :
    regroupLoading framework threshold weights code =
      if boundComponents framework weights ls = [] then .ok code
      else threshold.map fun n => String.ofList (regroupedLines framework n weights ls).flatten := by
  have hcomponents := @map_known framework weights ls code hls hwhole hsources hcode
  have hempty : (importSpans framework weights code ++ lazySpans weights code).isEmpty = true ↔
      boundComponents framework weights ls = [] := by
    rw [boundComponents, distinct_eq_nil_iff, ← hcomponents, List.map_eq_nil_iff, List.isEmpty_iff]
  have hall := @mergeSort_loadingSpans framework weights ls code hls hwhole hsources hcode
  simp only [regroupLoading, hall, hcomponents, hempty]
  cases hlines : lineSpans (isLoadingLine framework weights) 0 ls with
  | nil =>
    have hknown : (importSpans framework weights code ++ lazySpans weights code).isEmpty = true := by
      rw [hlines] at hall
      have hperm := List.mergeSort_perm ((importSpans framework weights code ++
        lazySpans weights code).map (·.2) ++ primitiveSpans framework code)
          fun a b => a.first ≤ b.first
      rw [hall, List.nil_perm, List.append_eq_nil_iff, List.map_eq_nil_iff] at hperm
      rw [hperm.1]
      rfl
    rw [if_pos (hempty.1 hknown)]
  | cons s spans =>
    split_ifs with hnone
    · rfl
    · cases threshold with
      | error e => rfl
      | ok n =>
        obtain ⟨front, l, back, hsplit, hfront, hl, hindent, hsplice⟩ :=
          splice_loadingLines hcode hlines
        simp only [bind, Except.bind, pure, Except.pure, Except.map, hsplice, hindent,
          regroupedLines_split hsplit hfront hl, flatten_blockLines, List.flatten_append]
        rfl

end Spans

end ViewWriter.Script
