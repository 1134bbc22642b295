import ViewWriter.Generator.Request
import ViewWriter.Proofs.Analysis.SectionOrder
import ViewWriter.Proofs.Generator.Subjects
import ViewWriter.Proofs.Number.Range

/-! The weights of imports. What is no number counts as one. Two kinds of weights cannot be used: an
integer that is so large that no floating-point number is near it cannot be read, and what is read as
`nan` cannot be kept within zero and one. -/

namespace ViewWriter

open ViewWriter.Schema ViewWriter.Analysis ViewWriter.Script

namespace Analysis

/-- The weight that is given for an import. Where none is given it is one. -/
def givenWeight (entry : Table Json) : Json := (entry.get? "weight").getD (.float .one)

/-- The weight that a value gives. -/
inductive Weighs : Json → Binary64 → Prop
  | int {i : ℤ} {x : Binary64} : Binary64.ofInt? i = some x → Weighs (.int i) x
  | float (x : Binary64) : Weighs (.float x) x
  | numeral {s : String} {x : Binary64} : Number.real? s = some x → Weighs (.str s) x
  | text {s : String} : Number.real? s = none → Weighs (.str s) .one
  | null : Weighs .null .one
  | bool (b : Bool) : Weighs (.bool b) .one
  | arr (items : List Json) : Weighs (.arr items) .one
  | obj (fields : Table Json) : Weighs (.obj fields) .one

variable {v : Json} {x : Binary64}

lemma weightOf_int (i : ℤ) : weightOf (.int i) = (Binary64.ofInt? i).elim (.error .range) .ok := by
  -- hidden, because the nearest number would be evaluated wherever it is looked at
  obtain ⟨nearest?, hnearest⟩ : ∃ nearest?, Binary64.ofInt? = nearest? := ⟨_, rfl⟩
  rw [weightOf.eq_def, Json.toReal.eq_def, hnearest]
  dsimp only
  cases nearest? i <;> rfl

lemma weightOf_str (s : String) : weightOf (.str s) = .ok ((Number.real? s).getD .one) := by
  rw [weightOf.eq_def, Json.toReal.eq_def]
  dsimp only
  cases Number.real? s <;> rfl

lemma Weighs.weightOf_eq (h : Weighs v x) : weightOf v = .ok x := by
  cases h with
  | int hi => rw [weightOf_int, hi]; rfl
  | numeral hs => rw [weightOf_str, hs]; rfl
  | text hs => rw [weightOf_str, hs]; rfl
  | float | null | bool | arr | obj => rfl

lemma Weighs.unique {y : Binary64} (hx : Weighs v x) (hy : Weighs v y) : x = y :=
  Except.ok.inj (hx.weightOf_eq.symm.trans hy.weightOf_eq)

/-- Every value gives a weight, unless it is an integer out of range. -/
lemma exists_weighs_or (v : Json) :
    (∃ x, Weighs v x) ∨ ∃ i, v = .int i ∧ Binary64.ofInt? i = none := by
  cases v with
  | null => exact .inl ⟨_, .null⟩
  | bool b => exact .inl ⟨_, .bool b⟩
  | int i =>
    cases hi : Binary64.ofInt? i with
    | none => exact .inr ⟨i, rfl, hi⟩
    | some x => exact .inl ⟨x, .int hi⟩
  | float x => exact .inl ⟨x, .float x⟩
  | str s =>
    cases hs : Number.real? s with
    | none => exact .inl ⟨_, .text hs⟩
    | some x => exact .inl ⟨x, .numeral hs⟩
  | arr items => exact .inl ⟨_, .arr items⟩
  | obj fields => exact .inl ⟨_, .obj fields⟩

lemma weightOf_eq_ok_iff : weightOf v = .ok x ↔ Weighs v x := by
  refine ⟨fun h => ?_, Weighs.weightOf_eq⟩
  obtain ⟨y, hy⟩ | ⟨i, rfl, hi⟩ := exists_weighs_or v
  · obtain rfl := Except.ok.inj (hy.weightOf_eq.symm.trans h)
    exact hy
  · rw [weightOf_int, hi] at h
    cases h

lemma exists_weighs_iff : (∃ x, Weighs v x) ↔ ∀ i, v = .int i → i.natAbs < Binary64.limit := by
  constructor
  · rintro ⟨x, hx⟩ i rfl
    cases hx with
    | int hi =>
      rw [← not_le, ← Binary64.ofInt?_eq_none_iff, hi]
      exact nofun
  · intro h
    refine (exists_weighs_or v).resolve_right ?_
    rintro ⟨i, hv, hi⟩
    exact (h i hv).not_ge (Binary64.ofInt?_eq_none_iff.1 hi)

lemma share_ne_nan (sections : List (List Record)) (type : String) : share sections type ≠ .nan := by
  rw [share]
  exact Binary64.roundPlaces_ne_nan 4 (Binary64.ofQuotient_ne_nan _ _ _)

variable {records : List Record} {sections : List (List Record)} {found : List Import} {i : Import}
  {entry : Table Json} {name : String}

lemma ofEntry_eq_ok_iff : Import.ofEntry entry = .ok i ↔ Weighs (givenWeight entry) i.weight ∧
    i.name = (Json.member entry "name").display ∧ i.source = (Json.member entry "source").display := by
  rw [Import.ofEntry, map_eq_ok_iff, ← givenWeight]
  simp only [weightOf_eq_ok_iff]
  constructor
  · rintro ⟨x, hx, rfl⟩
    exact ⟨hx, rfl, rfl⟩
  · obtain ⟨ownName, source, x⟩ := i
    rintro ⟨hx, rfl, rfl⟩
    exact ⟨x, hx, rfl⟩

lemma exists_imports_iff_weighs : (∃ found, imports records sections = .ok found) ↔
    ∀ entry ∈ firsts bindingOf? (importEntries records), ∃ x, Weighs (givenWeight entry) x := by
  rw [exists_imports_iff_firsts, firstsAfter_of_nil]
  refine forall₂_congr fun entry _ => ⟨?_, fun ⟨x, hx⟩ => ⟨⟨_, _, x⟩, ofEntry_eq_ok_iff.2 ⟨hx, rfl, rfl⟩⟩⟩
  rintro ⟨i, hi⟩
  exact ⟨i.weight, (ofEntry_eq_ok_iff.1 hi).1⟩

lemma weighs_of_mem_imports (h : imports records sections = .ok found) (hi : i ∈ found) :
    (∃ entry ∈ firsts bindingOf? (importEntries records), Weighs (givenWeight entry) i.weight) ∨
      i.weight ≠ .nan := by
  obtain ⟨given, hgiven, h⟩ := bind_eq_ok_iff.1 h
  cases h
  rw [declaredImports, declaredImportsOf_eq, firstsAfter_of_nil] at hgiven
  rcases List.mem_append.1 hi with hi | hi
  · obtain ⟨entry, hentry, hmade⟩ := (mem_of_mapM hgiven).1 hi
    exact .inl ⟨entry, hentry, (ofEntry_eq_ok_iff.1 hmade).1⟩
  · rw [implicitImports_eq] at hi
    obtain ⟨r, -, rfl⟩ := List.mem_map.1 hi
    refine .inr ?_
    dsimp only [Import.ofRecord]
    exact share_ne_nan sections r.type

lemma exists_import_of_entry (h : imports records sections = .ok found)
    (hentry : entry ∈ firsts bindingOf? (importEntries records)) (hname : bindingOf? entry = some name) :
    ∃ i ∈ found, i.name = name ∧ some i.source = givenText? entry "source" ∧
      Weighs (givenWeight entry) i.weight := by
  obtain ⟨given, hgiven, h⟩ := bind_eq_ok_iff.1 h
  cases h
  rw [declaredImports, declaredImportsOf_eq, firstsAfter_of_nil] at hgiven
  obtain ⟨i, hi, hmade⟩ := exists_of_mem_right (mapM_eq_ok_iff.1 hgiven).flip hentry
  obtain ⟨hweight, hown, hsource⟩ := ofEntry_eq_ok_iff.1 hmade
  obtain ⟨hgivenName, ⟨source, hgivenSource⟩, -⟩ := bindingOf?_eq_some_iff.1 hname
  refine ⟨i, List.mem_append_left _ hi, ?_, ?_, hweight⟩
  · rw [hown, display_of_given hgivenName]
  · rw [hsource, display_of_given hgivenSource, hgivenSource]

lemma numbers_iff (h : imports records sections = .ok found) : (∀ i ∈ found, i.weight ≠ .nan) ↔
    ∀ entry ∈ firsts bindingOf? (importEntries records), ¬ Weighs (givenWeight entry) .nan := by
  constructor
  · intro hall entry hentry hnan
    obtain ⟨name, hname⟩ := exists_name_of_mem (firstsAfter_of_nil _ ▸ hentry)
    obtain ⟨i, hi, -, -, hweight⟩ := exists_import_of_entry h hentry hname
    exact hall i hi (hweight.unique hnan)
  · intro hall i hi
    obtain ⟨entry, hentry, hweight⟩ | hshare := weighs_of_mem_imports h hi
    · exact fun hnan => hall entry hentry (hnan ▸ hweight)
    · exact hshare

end Analysis

namespace Script

variable {name source : String} {x : Binary64} {m : WeightedImport}

lemma weighted_eq (hx : x ≠ .nan) :
    weighted name source x = .ok ⟨name, source, .float x.clampUnit⟩ := by
  rw [weighted, WeightedImport.make, if_pos (Number.within_iff.2 (Binary64.isShare_clampUnit hx))]

lemma weighted_nan : weighted name source .nan = .error ⟨name, "nan"⟩ := rfl

lemma weighted_eq_ok_iff : weighted name source x = .ok m ↔
    x ≠ .nan ∧ m = ⟨name, source, .float x.clampUnit⟩ := by
  by_cases hx : x = .nan
  · subst hx
    exact iff_of_false (by rw [weighted_nan]; exact nofun) fun h => h.1 rfl
  · rw [weighted_eq hx, and_iff_right hx, Except.ok.injEq, eq_comm]

end Script

namespace Target

lemma weight_spelled (f : Framework) (i : Import) : ((ofFramework f).spelled i).weight = i.weight := by
  cases f with
  | angular =>
    show (Angular.spelled i).weight = i.weight
    rw [Angular.spelled]
    split_ifs <;> rfl
  | react | vue | html => rfl

end Target

namespace Generator

variable {g : Generator} {s : Subject} {t : Tree} {o : Options} {p : Parts}

/-- What the analysis of nodes asks for, imports apart. -/
structure Ready (g : Generator) (o : Options) (records : List Record) : Prop where
  dialect : ∃ d, g.target.dialect g.config o = .ok d
  indent : ∃ unit, g.config.indentUnit = .ok unit
  classes : ∃ classes, classNames g.config records = .ok classes
  effects : ∃ found, effects records = .ok found
  functions : ∃ found, functions records = .ok found
  custom : ∃ custom, g.config.custom.table = .ok custom

lemma ofComponent_eq {source : Source} {a : Arena} {root : String} {others : List String}
    (ha : Arena.ofSource source = .ok a) (hroots : a.roots = root :: others) (d : Markup.Dialect)
    (unit : String) (config : Config) :
    ofComponent d unit config source = ofArena d unit config a root [root] := by
  rw [ofComponent, ha]
  simp only [fromSchema, Except.mapError, bind, Except.bind, hroots]

lemma ofPage_eq {sections : List Source} {a : Arena} (ha : Arena.wrap sections = .ok a)
    (d : Markup.Dialect) (unit : String) (config : Config) : ofPage d unit config sections =
      ofArena d unit config a Arena.pageRoot (a.childrenOf Arena.pageRoot) := by
  rw [ofPage, ha]
  rfl

lemma exists_arena (hs : s.Standing) (ht : s.Shows t) :
    ∃ (a : Arena) (root : String) (ids : List String) (sections : List (List Record)),
      a.walkAt root = .ok t.records ∧ a.toTree root = .ok t ∧ ids.mapM a.walkAt = .ok sections ∧
      ∀ (g : Generator) (o : Options) (p : Parts), g.parts s o = .ok p ↔
        ∃ d, g.target.dialect g.config o = .ok d ∧ ∃ unit, g.config.indentUnit = .ok unit ∧
          ofArena d unit g.config a root ids = .ok p := by
  cases ht with
  | @component source a root others _ ha hroots ht =>
    obtain ⟨F, hF⟩ := Arena.stands_ofSource hs ha
    have hwalk := hF.walkAt_of_toTree ht
    refine ⟨a, root, [root], [t.records], hwalk, ht, ?_, fun g o p => ?_⟩
    · rw [List.mapM_cons, hwalk]
      rfl
    · simp only [parts, bind_eq_ok_iff, ← ofComponent_eq ha hroots]
      exact exists_congr fun d => and_congr mapError_eq_ok_iff
        (exists_congr fun unit => and_congr mapError_eq_ok_iff mapError_eq_ok_iff)
  | @page sections a _ ha ht =>
    obtain ⟨trees, -, hstands⟩ := Arena.exists_trees_of_wrap hs ha
    refine ⟨a, _, _, _, hstands.walkAt_of_toTree ht, ht, parts_page hstands, fun g o p => ?_⟩
    simp only [parts, bind_eq_ok_iff, ← ofPage_eq ha]
    exact exists_congr fun d => and_congr mapError_eq_ok_iff
      (exists_congr fun unit => and_congr mapError_eq_ok_iff mapError_eq_ok_iff)

lemma exists_parts_iff (hs : s.Standing) (ht : s.Shows t) : (∃ p, g.parts s o = .ok p) ↔
    g.Ready o t.records ∧
      ∀ entry ∈ firsts bindingOf? (importEntries t.records), ∃ x, Weighs (givenWeight entry) x := by
  obtain ⟨a, root, ids, sections, hwalk, htree, hparts, hp⟩ := exists_arena hs ht
  have hfound : (∃ found, Analysis.imports t.records sections = .ok found) ↔ _ :=
    exists_imports_iff_weighs
  rw [← hfound]
  simp only [hp]
  constructor
  · rintro ⟨p, d, hd, unit, hunit, h⟩
    obtain ⟨hready, -⟩ := analyzable_of_ofArena hwalk hparts h
    exact ⟨⟨⟨d, hd⟩, ⟨unit, hunit⟩, hready.classes, hready.effects, hready.functions, hready.custom⟩,
      hready.imports⟩
  · rintro ⟨⟨⟨d, hd⟩, ⟨unit, hunit⟩, hclasses, heffects, hfunctions, hcustom⟩, hfound⟩
    obtain ⟨p, h⟩ := exists_ofArena hwalk htree hparts
      ⟨hclasses, heffects, hfunctions, hfound, hcustom⟩
    exact ⟨p, d, hd, unit, hunit, h⟩

lemma weightedImports_eq_ok_iff {f : Framework} {config : Config} {v : View}
    {made : List WeightedImport} : (ofFramework f config).weightedImports v = .ok made ↔
      List.Forall₂ (fun i m => i.weight ≠ .nan ∧ m = ⟨((Target.ofFramework f).spelled i).name,
        ((Target.ofFramework f).spelled i).source, .float i.weight.clampUnit⟩) v.parts.imports made := by
  have htarget : (ofFramework f config).target = Target.ofFramework f := rfl
  rw [weightedImports, imports, mapM_eq_ok_iff, List.forall₂_map_left_iff, htarget]
  simp only [weighted_eq_ok_iff, Target.weight_spelled]

lemma exists_weightedImports_iff {f : Framework} {config : Config} {v : View} :
    (∃ made, (ofFramework f config).weightedImports v = .ok made) ↔
      ∀ i ∈ v.parts.imports, i.weight ≠ .nan := by
  have htarget : (ofFramework f config).target = Target.ofFramework f := rfl
  rw [weightedImports, imports, exists_mapM_iff, List.forall_mem_map, htarget]
  refine forall₂_congr fun i _ => ?_
  simp only [weighted_eq_ok_iff, Target.weight_spelled, exists_and_left, exists_eq, and_true]

/-- A subject that is otherwise in order can be analysed if and only if no first entry of a name gives an
integer out of range as its weight. Then every such entry has its import, whose weight is the number that
is given, or one where none is. All imports get weights within zero and one if and only if no such entry
gives `nan`, and these are the numbers kept within zero and one. -/
theorem import_weights_usable (f : Framework) (config : Config) (hs : s.Standing) (ht : s.Shows t)
    (o : Options) :
    ((∃ p, (ofFramework f config).parts s o = .ok p) ↔
      (ofFramework f config).Ready o t.records ∧
        ∀ entry ∈ firsts bindingOf? (importEntries t.records),
          ∀ i, givenWeight entry = .int i → i.natAbs < Binary64.limit) ∧
    ∀ p, (ofFramework f config).parts s o = .ok p →
      (∀ entry ∈ firsts bindingOf? (importEntries t.records), ∀ name, bindingOf? entry = some name →
        ∃ i ∈ p.imports, i.name = name ∧ some i.source = givenText? entry "source" ∧
          Weighs (givenWeight entry) i.weight) ∧
      ((∃ made, (ofFramework f config).weightedImports
          ((ofFramework f config).viewOf p s.isPage o) = .ok made) ↔
        ∀ entry ∈ firsts bindingOf? (importEntries t.records), ¬ Weighs (givenWeight entry) .nan) ∧
      ∀ made, (ofFramework f config).weightedImports
          ((ofFramework f config).viewOf p s.isPage o) = .ok made →
        made.map (·.weight) = p.imports.map (fun i => .float i.weight.clampUnit) ∧
        ∀ m ∈ made, ((Number.int 0).le m.weight && m.weight.le (.int 1)) = true := by
  refine ⟨?_, fun p hp => ?_⟩
  · rw [exists_parts_iff hs ht]
    simp only [exists_weighs_iff]
  obtain ⟨d, unit, classes, -, hparts⟩ := partsOf_shown hs ht hp
  obtain ⟨sections, himports⟩ := hparts.imports
  refine ⟨fun entry hentry name hname => exists_import_of_entry himports hentry hname, ?_,
    fun made hmade => ?_⟩
  · rw [exists_weightedImports_iff]
    exact numbers_iff himports
  · rw [weightedImports_eq_ok_iff] at hmade
    constructor
    · have hweights : List.Forall₂ (· = ·) (made.map (·.weight))
          (p.imports.map fun i => .float i.weight.clampUnit) := by
        rw [List.forall₂_map_left_iff, List.forall₂_map_right_iff]
        exact hmade.flip.imp fun m i h => by rw [h.2]
      rwa [List.forall₂_eq_eq_eq] at hweights
    · intro m hm
      obtain ⟨i, -, hnumber, rfl⟩ := exists_of_mem_right hmade hm
      exact Number.within_iff.2 (Binary64.isShare_clampUnit hnumber)

def weighings (weights : List (String × Json)) : List (Table Json) :=
  weights.map fun (name, v) => [("name", .str name), ("source", .str ("./" ++ name)), ("weight", v)]

def importing (weights : List (String × Json)) : Tree :=
  .node ⟨"a", "div", [("imports", .arr ((weighings weights).map .obj))], [], .null⟩ []

lemma ready_importing (weights : List (String × Json)) :
    (ofFramework .react {}).Ready {} (importing weights).records :=
  ⟨⟨_, rfl⟩, ⟨_, rfl⟩, ⟨_, rfl⟩, ⟨_, rfl⟩, ⟨_, rfl⟩, ⟨_, rfl⟩⟩

lemma shows_importing (weights : List (String × Json)) :
    Subject.Shows (.component (.tree (importing weights))) (importing weights) := by
  have hids : idsOf [importing weights] = ["a"] := rfl
  exact Subject.shows_tree (by rw [hids]; decide) (by rw [hids]; decide)

def usable : List (String × Json) := [
  ("Text", .str "heavy"), ("Quarter", .str " 0.25 "), ("Null", .null), ("True", .bool true),
  ("Large", .int (powerOfTwo 1000)), ("Below", .int (-3)), ("Beyond", .str "-inf"), ("List", .arr []),
  ("Object", .obj [("weight", .int 0)])]

lemma firsts_usable : firsts bindingOf? (importEntries (importing usable).records) = weighings usable := by
  rfl

theorem import_weights_usable_mixed : ∃ p made,
    (ofFramework .react {}).parts (.component (.tree (importing usable))) {} = .ok p ∧
    (ofFramework .react {}).weightedImports ((ofFramework .react {}).viewOf p false {}) = .ok made ∧
    (∃ i ∈ p.imports, i.name = "Text" ∧ i.weight = .one) ∧
    (∃ i ∈ p.imports, i.name = "Quarter" ∧ i.weight = .finite false (powerOfTwo 1072)) ∧
    made.length = p.imports.length ∧
    ∀ m ∈ made, ((Number.int 0).le m.weight && m.weight.le (.int 1)) = true := by
  have hs : Subject.Standing (.component (.tree (importing usable))) := fun a ha => by cases ha
  have husable := import_weights_usable .react {} hs (shows_importing usable) {}
  rw [firsts_usable] at husable
  obtain ⟨hparts, hall⟩ := husable
  have hrange : (weighings usable).all fun entry => match givenWeight entry with
      | .int i => i.natAbs < Binary64.limit
      | _ => true := by
    decide +kernel
  have hnumbers : (weighings usable).all fun entry =>
      (weightOf (givenWeight entry)).toOption != some .nan := by
    decide +kernel
  obtain ⟨p, hp⟩ := hparts.2 ⟨ready_importing usable, fun entry hentry i hi => by
    have hentry := List.all_eq_true.1 hrange entry hentry
    rw [hi] at hentry
    exact of_decide_eq_true hentry⟩
  obtain ⟨hfound, hmade, hwithin⟩ := hall p hp
  obtain ⟨made, hmade⟩ := hmade.2 fun entry hentry hnan => by
    have hentry := List.all_eq_true.1 hnumbers entry hentry
    rw [hnan.weightOf_eq] at hentry
    exact absurd hentry (by decide)
  obtain ⟨hweights, hwithin⟩ := hwithin made hmade
  have himport {name : String} {v : Json} {x : Binary64} (hx : Weighs v x)
      (hentry : (name, v) ∈ usable) (hname : bindingOf? [("name", .str name),
        ("source", .str ("./" ++ name)), ("weight", v)] = some name) :
      ∃ i ∈ p.imports, i.name = name ∧ i.weight = x := by
    obtain ⟨i, hi, hown, -, hweight⟩ := hfound _ (List.mem_map_of_mem hentry) name hname
    exact ⟨i, hi, hown, hweight.unique hx⟩
  refine ⟨p, made, hp, hmade, ?_, ?_, ?_, hwithin⟩
  · exact himport (v := .str "heavy") (.text (by decide +kernel)) List.mem_cons_self rfl
  · exact himport (v := .str " 0.25 ") (.numeral (by decide +kernel))
      (List.mem_cons_of_mem _ List.mem_cons_self) rfl
  · simpa using congrArg List.length hweights

lemma firsts_single (v : Json) :
    firsts bindingOf? (importEntries (importing [("A", v)]).records) = weighings [("A", v)] := by
  have hentries : importEntries (importing [("A", v)]).records = weighings [("A", v)] := rfl
  have hname : bindingOf? [("name", .str "A"), ("source", .str ("./" ++ "A")), ("weight", v)] =
      some "A" := bindingOf?_eq_some_iff.2 ⟨by rfl, ⟨_, by rfl⟩, by decide⟩
  rw [hentries, ← firstsAfter_of_nil, weighings]
  exact firstsAfter_new hname List.not_mem_nil []

/-- An integer out of range stops the analysis, and `nan` stops what comes after it. -/
theorem import_weights_unusable :
    (∀ p, (ofFramework .react {}).parts
      (.component (.tree (importing [("A", .int (powerOfTen 400))]))) {} ≠ .ok p) ∧
    ∃ p, (ofFramework .react {}).parts (.component (.tree (importing [("A", .str "nan")]))) {} = .ok p ∧
      ∀ made, (ofFramework .react {}).weightedImports
        ((ofFramework .react {}).viewOf p false {}) ≠ .ok made := by
  have hs (t : Tree) : Subject.Standing (.component (.tree t)) := fun a ha => by cases ha
  have hnan : Weighs (.str "nan") .nan := .numeral (by decide +kernel)
  constructor
  · intro p hp
    have hweighs := ((exists_parts_iff (hs _) (shows_importing _)).1 ⟨p, hp⟩).2
    rw [firsts_single] at hweighs
    have hlarge : Binary64.limit ≤ (powerOfTen 400 : ℤ).natAbs := by decide +kernel
    exact (exists_weighs_iff.1 (hweighs _ List.mem_cons_self) _ rfl).not_ge hlarge
  · have hparts := exists_parts_iff (g := ofFramework .react {}) (o := {}) (hs _)
      (shows_importing [("A", .str "nan")])
    have hfirsts := firsts_single (.str "nan")
    rw [hfirsts] at hparts
    obtain ⟨p, hp⟩ := hparts.2 ⟨ready_importing _, List.forall_mem_singleton.2 ⟨_, hnan⟩⟩
    refine ⟨p, hp, fun made hmade => ?_⟩
    obtain ⟨d, unit, classes, -, hpartsOf⟩ := partsOf_shown (hs _) (shows_importing _) hp
    obtain ⟨sections, himports⟩ := hpartsOf.imports
    have hnumbers := (numbers_iff himports).1 (exists_weightedImports_iff.1 ⟨made, hmade⟩)
    rw [hfirsts] at hnumbers
    exact hnumbers _ List.mem_cons_self hnan

end Generator

end ViewWriter
