import ViewWriter.Markup.Dialect
import ViewWriter.Proofs.Name.Words
import ViewWriter.Proofs.Script.UsedNames

/-! The tags of components. Their names are in use where the tags stand, and so their imports stay. -/

namespace ViewWriter.Name

open ViewWriter.Text

variable {c : Char} {w : List Char} {ws : List (List Char)}

lemma exists_words_of_upper {name : String} (h : name.toList.head?.any isAsciiUpper = true) :
    ∃ c w ws, isAsciiLower c = true ∧ wordChars name.toList = (c :: w) :: ws := by
  obtain ⟨d, hd, hupper⟩ := (Option.any_eq_true _ _).1 h
  obtain ⟨rest, hrest⟩ := List.head?_eq_some_iff.1 hd
  obtain ⟨hletter, hlower⟩ : isAsciiAlphanumeric d = true ∧ isAsciiLower (asciiLower d) = true :=
    of_upper (P := fun d => isAsciiAlphanumeric d = true ∧ isAsciiLower (asciiLower d) = true)
      (by decide) hupper
  obtain ⟨w, ws, hwords⟩ := wordChars_cons hletter rest
  exact ⟨asciiLower d, w, ws, hlower, by rw [hrest, hwords]⟩

lemma component_of_words {name : String} (hc : isAsciiLower c = true)
    (h : wordChars name.toList = (c :: w) :: ws) (default : String) :
    component name default = String.ofList (((c :: w) :: ws).flatMap capitalizeChars) := by
  have hdigit : isAsciiDigit (asciiUpper c) = false :=
    of_lower (P := fun c => isAsciiDigit (asciiUpper c) = false) (by decide) hc
  rw [component, pascalChars, h, List.flatMap_cons, capitalizeChars, List.cons_append]
  simp only [hdigit, Bool.false_eq_true, if_false]

end ViewWriter.Name

namespace ViewWriter.Script

open ViewWriter.Text ViewWriter.Name ViewWriter.Markup

variable {c stop : Char} {cs back first tag : List Char} {ws : List (List Char)} {name : String}

/-- The characters that end the name of a tag. -/
def endsTag (c : Char) : Bool := c == ' ' || c == '>' || c == '/'

/-- A tag of that name is opened or closed in a text. -/
def HasTag (tag cs : List Char) : Prop :=
  ∃ front slash stop back, cs = front ++ '<' :: (slash ++ (tag ++ stop :: back)) ∧
    (slash = [] ∨ slash = ['/']) ∧ endsTag stop = true

lemma endsTag_cases (h : endsTag stop = true) : isTagChar stop = false ∧ stop ≠ '-' := by
  simp only [endsTag, Bool.or_eq_true, beq_iff_eq] at h
  rcases h with (rfl | rfl) | rfl <;> decide

/-! A tag as it is read: its first word, and at least one more. -/

lemma hyphenated_words (hws : ∀ w ∈ ws, IsTagWord w) (hstop : endsTag stop = true) (back : List Char) :
    hyphenated (ws.flatMap ('-' :: ·) ++ stop :: back) = ws := by
  obtain ⟨htag, hhyphen⟩ := endsTag_cases hstop
  induction ws with
  | nil =>
    rw [List.flatMap_nil, List.nil_append, hyphenated]
    simpa using hhyphen
  | cons w ws ih =>
    obtain ⟨hw, hws⟩ := List.forall_mem_cons.1 hws
    -- after the word comes the next hyphen or the end
    obtain ⟨d, more, hrest, hd⟩ : ∃ d more,
        ws.flatMap ('-' :: ·) ++ stop :: back = d :: more ∧ isTagChar d = false := by
      cases ws with
      | nil => exact ⟨stop, back, rfl, htag⟩
      | cons v ws => exact ⟨'-', _, rfl, by decide⟩
    have hnext := ih hws
    rw [hrest] at hnext
    rw [List.flatMap_cons, List.append_assoc, List.cons_append, hrest, hyphenated,
      takeWhile_stop hw.tagChar hd, if_neg (by simpa using hw.ne_nil), dropWhile_stop hw.tagChar hd,
      hnext]

lemma tagParts?_words (hc : isAsciiLower c = true) (hfirst : ∀ d ∈ first, isTagChar d = true)
    (hws : ∀ w ∈ ws, IsTagWord w) (hne : ws ≠ []) (hstop : endsTag stop = true) (back : List Char) :
    tagParts? (c :: first ++ (ws.flatMap ('-' :: ·) ++ stop :: back)) = some (c :: first, ws) := by
  obtain ⟨v, vs, rfl⟩ := List.exists_cons_of_ne_nil hne
  have hwords := hyphenated_words hws hstop back
  have hhyphen : isTagChar '-' = false := by decide
  rw [List.flatMap_cons, List.cons_append, List.cons_append] at hwords ⊢
  rw [List.cons_append, tagParts?, takeWhile_stop hfirst hhyphen, dropWhile_stop hfirst hhyphen, hwords]
  simp [hc]

lemma joinWith_hyphens (w : List Char) (ws : List (List Char)) :
    joinWith ['-'] (w :: ws) = w ++ ws.flatMap ('-' :: ·) := joinWith_eq ['-'] w ws

lemma pascalChars_hyphens {w : List Char} (hw : IsTagWord w) (hws : ∀ v ∈ ws, IsTagWord v) :
    pascalChars (w ++ ws.flatMap ('-' :: ·)) = (w :: ws).flatMap capitalizeChars := by
  rw [pascalChars, wordChars_hyphens hw hws]

lemma tagHere_words {slash : List Char} (hc : isAsciiLower c = true)
    (hfirst : ∀ d ∈ first, isTagChar d = true) (hws : ∀ w ∈ ws, IsTagWord w) (hne : ws ≠ [])
    (hslash : slash = [] ∨ slash = ['/']) (hstop : endsTag stop = true) :
    tagHere (slash ++ ((c :: first ++ ws.flatMap ('-' :: ·)) ++ stop :: back)) =
      [String.ofList (((c :: first) :: ws).flatMap capitalizeChars),
        String.ofList (ws.flatMap capitalizeChars)] := by
  have hparts := tagParts?_words hc hfirst hws hne hstop back
  have hopen : (if (slash ++ ((c :: first ++ ws.flatMap ('-' :: ·)) ++ stop :: back)).head? == some '/'
      then (slash ++ ((c :: first ++ ws.flatMap ('-' :: ·)) ++ stop :: back)).drop 1
      else slash ++ ((c :: first ++ ws.flatMap ('-' :: ·)) ++ stop :: back)) =
        c :: first ++ (ws.flatMap ('-' :: ·) ++ stop :: back) := by
    rw [List.append_assoc]
    rcases hslash with rfl | rfl
    · have hletter : c ≠ '/' := by
        rintro rfl
        exact absurd hc (by decide)
      rw [List.nil_append, List.cons_append, List.head?_cons, if_neg (by simpa using hletter)]
    · rfl
  obtain ⟨v, vs, rfl⟩ := List.exists_cons_of_ne_nil hne
  obtain ⟨hv, hvs⟩ := List.forall_mem_cons.1 hws
  have hword : IsTagWord (c :: first) := by
    refine ⟨List.cons_ne_nil c first, List.forall_mem_cons.2 ⟨?_, hfirst⟩⟩
    rw [isTagChar, hc, Bool.true_or]
  have hrest : '-' :: joinWith ['-'] (v :: vs) = (v :: vs).flatMap ('-' :: ·) := by
    rw [joinWith_hyphens, List.flatMap_cons, List.cons_append]
  rw [tagHere, hopen, hparts]
  dsimp only
  rw [hrest, pascalChars_hyphens hword hws, joinWith_hyphens, pascalChars_hyphens hv hvs]

/-- The tag of a component is its words, or its only word after another, and the name of the component
is among those that are read from it. -/
lemma name_mem_tagHere {r : Schema.Record} {slash : List Char}
    (hupper : r.type.toList.head?.any isAsciiUpper = true)
    (hslash : slash = [] ∨ slash = ['/']) (hstop : endsTag stop = true) (default : String) :
    component r.type default ∈
      tagHere (slash ++ ((Dialect.htmlTagName r).toList ++ stop :: back)) := by
  obtain ⟨c, w, ws, hc, hwords⟩ := exists_words_of_upper hupper
  have hall : ∀ v ∈ (c :: w) :: ws, IsTagWord v := fun v hv =>
    isTagWord_of_mem_wordChars (hwords ▸ hv)
  obtain ⟨hw, hws⟩ := List.forall_mem_cons.1 hall
  have hkebab : (kebab r.type).toList = c :: w ++ ws.flatMap ('-' :: ·) := by
    rw [kebab, String.toList_ofList, kebabChars, hwords, joinWith_hyphens]
  have hcustom : r.isCustom = true := by
    obtain ⟨d, hd, hupper⟩ := (Option.any_eq_true _ _).1 hupper
    obtain ⟨rest, hrest⟩ := List.head?_eq_some_iff.1 hd
    rw [Schema.Record.isCustom, hrest]
    exact of_upper (P := fun d => isUppercase d = true) (by decide) hupper
  have htag : Dialect.htmlTagName r =
      if (kebab r.type).toList.contains '-' then kebab r.type else "x-" ++ kebab r.type :=
    if_pos hcustom
  rw [component_of_words hc hwords, htag, hkebab]
  by_cases hne : ws = []
  · have hhyphen : (c :: w).contains '-' = false := by
      rw [← Bool.not_eq_true, List.contains_iff_mem]
      exact fun hm => absurd (hw.tagChar '-' hm) (by decide)
    subst hne
    have hprefixed : ("x-" ++ kebab r.type).toList = 'x' :: [] ++ [c :: w].flatMap ('-' :: ·) := by
      rw [String.toList_append, hkebab]
      rfl
    rw [List.flatMap_nil, List.append_nil, hhyphen, if_neg Bool.false_ne_true, hprefixed,
      tagHere_words (by decide) (by simp) hall (List.cons_ne_nil _ _) hslash hstop]
    exact List.mem_cons_of_mem _ List.mem_cons_self
  · have hhyphen : (c :: w ++ ws.flatMap ('-' :: ·)).contains '-' = true := by
      obtain ⟨v, vs, rfl⟩ := List.exists_cons_of_ne_nil hne
      simp
    rw [hhyphen, if_pos rfl, hkebab, tagHere_words hc
      (fun d hd => hw.tagChar d (List.mem_cons_of_mem c hd)) hws hne hslash hstop]
    exact List.mem_cons_self

lemma mem_tagNames_of_here {rest : List Char} (h : name ∈ tagHere rest) (front : List Char) :
    name ∈ tagNames (front ++ '<' :: rest) := by
  induction front with
  | nil =>
    rw [List.nil_append, tagNames_bracket]
    exact List.mem_append_left _ h
  | cons d front ih =>
    rw [List.cons_append]
    by_cases hd : d = '<'
    · rw [hd, tagNames_bracket]
      exact List.mem_append_right _ ih
    · rwa [tagNames_skip hd]

lemma name_mem_references {r : Schema.Record}
    (hupper : r.type.toList.head?.any isAsciiUpper = true) (default : String)
    (h : HasTag (Dialect.htmlTagName r).toList cs) : component r.type default ∈ references cs := by
  obtain ⟨front, slash, stop, back, rfl, hslash, hstop⟩ := h
  apply List.mem_append_right
  apply mem_tagNames_of_here
  exact name_mem_tagHere hupper hslash hstop default

/-! Imports of a name that is in use. -/

section Imports

variable {used : String → Bool} {ps before after : List (Piece (Option Statement))}
  {p : Piece (Option Statement)} {raw : List Char} {s : Statement}

lemma HasTag.append (h : HasTag tag cs) (front back : List Char) :
    HasTag tag (front ++ (cs ++ back)) := by
  obtain ⟨before, slash, stop, after, rfl, hslash, hstop⟩ := h
  exact ⟨front ++ before, slash, stop, after ++ back, by simp, hslash, hstop⟩

lemma exists_bodyOf (h : p ∈ ps) (hp : p.statement? = none) :
    ∃ front back, bodyOf ps = front ++ (p.raw ++ back) := by
  induction ps with
  | nil => cases h
  | cons q ps ih =>
    rcases List.mem_cons.1 h with rfl | h
    · refine ⟨[], bodyOf ps, ?_⟩
      rcases p with cs | ⟨_ | s, raw⟩
      · rfl
      · rfl
      · cases hp
    · obtain ⟨front, back, hbody⟩ := ih h
      rcases q with cs | ⟨_ | s, raw⟩
      · exact ⟨cs ++ front, back, by rw [bodyOf, hbody, Piece.raw, List.append_assoc]; simp⟩
      · exact ⟨raw ++ front, back, by rw [bodyOf, hbody, Piece.raw, List.append_assoc]; simp⟩
      · exact ⟨'\n' :: front, back, by rw [bodyOf, hbody, List.cons_append]⟩

lemma restrictPieces_append (before after : List (Piece (Option Statement))) :
    restrictPieces used (before ++ after) = restrictPieces used before ++ restrictPieces used after := by
  induction before with
  | nil => rfl
  | cons b before ih =>
    rw [List.cons_append, restrictPieces_cons, restrictPieces_cons, ih, List.append_assoc]

def IsBroken (cs : List Char) : Prop := cs = [] ∨ ∃ l, cs = l ++ ['\n']

lemma IsBroken.append {ds : List Char} (hc : IsBroken cs) (hd : IsBroken ds) : IsBroken (cs ++ ds) := by
  rcases hd with rfl | ⟨l, rfl⟩
  · rwa [List.append_nil]
  · exact .inr ⟨cs ++ l, (List.append_assoc cs l ['\n']).symm⟩

lemma isBroken_raw (hp : IsPiece p ps) (hne : ps ≠ []) : IsBroken p.raw := by
  cases p with
  | plain cs =>
    rcases hp with ⟨l, -, rfl⟩ | ⟨-, -, hlast⟩
    · exact .inr ⟨l, rfl⟩
    · exact absurd hlast hne
  | found v raw =>
    obtain ⟨s, clause, ending, -, -, rfl, rfl | ⟨-, hlast⟩⟩ := hp
    · exact .inr ⟨s.text, rfl⟩
    · exact absurd hlast hne

lemma isBroken_restrictPiece (h : IsBroken p.raw) :
    IsBroken (concatPieces (restrictPiece used p)) := by
  rcases p with cs | ⟨_ | s, raw⟩
  · simpa [restrictPiece, concatPieces] using h
  · simpa [restrictPiece, concatPieces] using h
  · simp only [restrictPiece]
    split_ifs
    · simpa [concatPieces] using h
    · exact .inl rfl
    · exact .inr ⟨_, by simpa [concatPieces, Piece.raw] using Statement.toList_write _⟩

lemma isBroken_restrictPieces (h : ArePieces (before ++ p :: after)) :
    IsBroken (restrictPieces used before) := by
  induction before with
  | nil => exact .inl rfl
  | cons b before ih =>
    rw [restrictPieces_cons]
    obtain - | ⟨hb, hrest⟩ := h
    exact (isBroken_restrictPiece (isBroken_raw hb (by simp))).append (ih hrest)

lemma mem_locals_restrict {c : Clause} (h : name ∈ c.locals) (hused : used name = true) :
    name ∈ (c.restrict used).locals := by
  simp only [Clause.locals, List.mem_append, Option.mem_toList, List.mem_map] at h ⊢
  rcases h with (h | h) | ⟨n, hn, rfl⟩
  · exact .inl (.inl (Option.mem_filter_iff.2 ⟨h, hused⟩))
  · exact .inl (.inr (Option.mem_filter_iff.2 ⟨h, hused⟩))
  · exact .inr ⟨n, List.mem_filter.2 ⟨hn, hused⟩, rfl⟩

/-- An import statement stands in a text at a line start. -/
def HasImport (s : Statement) (cs : List Char) : Prop :=
  ∃ front m, cs = front ++ (m.raw ++ m.rest) ∧ IsBroken front ∧
    importAt? (m.raw ++ m.rest) = some m ∧ m.value = some s

/-- Of a statement that imports a name in use there is left what it imports of the names in use. -/
lemma hasImport_restrictPieces (h : ArePieces (before ++ .found (some s) raw :: after))
    (hname : name ∈ s.clause.locals) (hused : used name = true) : ∃ s',
      HasImport s' (restrictPieces used (before ++ .found (some s) raw :: after)) ∧
        s'.unbraced = { s with clause := s.clause.restrict used }.unbraced := by
  have hkept := mem_locals_restrict hname hused
  have hempty : (s.clause.restrict used).isEmpty = false := by
    refine Bool.eq_false_iff.2 fun he => ?_
    simp only [Clause.isEmpty, Bool.and_eq_true, Option.isNone_iff_eq_none, List.isEmpty_iff] at he
    simp [Clause.locals, he] at hkept
  have hpiece := h.isPiece
  have hne : restrictStatement used s raw ≠ [] := by
    simp only [restrictStatement]
    split_ifs with hall hgone
    · exact hpiece.raw_ne_nil
    · exact absurd hgone (by simp [hempty])
    · exact Statement.write_ne_nil _
  obtain ⟨s', hs', hfound⟩ := importAt?_restrictStatement hpiece hne
  refine ⟨s', ⟨restrictPieces used before,
    ⟨some s', restrictStatement used s raw, restrictPieces used after⟩, ?_,
    isBroken_restrictPieces h, hfound, rfl⟩, ?_⟩
  · rw [restrictPieces_append, restrictPieces]
  · have hstatements := @statements_restrictPiece used (.found (some s) raw)
    rw [hs'] at hstatements
    simpa [Piece.statement?, Statement.restricted?, hempty] using hstatements

end Imports

/-- The tag of a component is a use of its name. Where it stands outside the import statements, each
statement that imports the name stays, with what it imports of the names in use, and the name is one
of these. -/
theorem component_tag_used (r : Schema.Record)
    (hupper : r.type.toList.head?.any isAsciiUpper = true) :
    let tag := (Dialect.htmlTagName r).toList
    let name := component r.type defaultComponent
    (∀ code : String, HasTag tag code.toList → name ∈ references code.toList) ∧
      ∀ (config : Config) (kept : Json) (preserve : List String) (code : String),
        Optimize.names (if kept.isNull then config.preserveImports else kept) = .ok preserve →
        (∃ p ∈ importPieces code, p.statement? = none ∧ HasTag tag p.raw) →
        ∃ out, Optimize.imports config kept code = .ok out ∧
          ∀ before s raw after, importPieces code = before ++ .found (some s) raw :: after →
            name ∈ s.clause.locals → ∃ s', HasImport s' out.toList ∧ name ∈ s'.clause.locals ∧
              s'.unbraced = { s with
                clause := s.clause.restrict (keptNames preserve code).contains }.unbraced := by
  intro tag name
  refine ⟨fun code => name_mem_references hupper defaultComponent, ?_⟩
  rintro config kept preserve code hnames ⟨p, hp, hplain, htag⟩
  have hout : Optimize.imports config kept code = .ok (withoutUnused preserve code) := by
    simp only [Optimize.imports, hnames]
    rfl
  have hused : (keptNames preserve code).contains name = true := by
    obtain ⟨front, back, hbody⟩ := exists_bodyOf hp hplain
    rw [List.contains_iff_mem, keptNames, hbody]
    apply List.mem_append_left
    exact name_mem_references hupper defaultComponent (htag.append front back)
  refine ⟨_, hout, fun before s raw after hpieces hname => ?_⟩
  have hare : ArePieces (before ++ .found (some s) raw :: after) := hpieces ▸ arePieces_pieces _
  obtain ⟨s', himport, hs'⟩ := hasImport_restrictPieces hare hname hused
  refine ⟨s', ?_, ?_, hs'⟩
  · rw [withoutUnused, String.toList_ofList]
    change HasImport s' (restrictPieces (keptNames preserve code).contains (importPieces code))
    rwa [hpieces]
  · have hlocals : s'.clause.locals =
        (s.clause.restrict (keptNames preserve code).contains).locals :=
      congrArg (fun t : Statement => t.clause.locals) hs'
    rw [hlocals]
    exact mem_locals_restrict hname hused

deriving instance DecidableEq for Piece

def cardRecord : Schema.Record := ⟨"a", "UserCard", [], [], .null⟩

def cardScript : String := "import UserCard from './UserCard';\nconst card = <user-card/>;\n"

theorem component_tag_used_card :
    cardRecord.type.toList.head?.any isAsciiUpper = true ∧ Optimize.names (.arr []) = .ok [] ∧
      ∃ out, Optimize.imports {} (.arr []) cardScript = .ok out ∧
        ∃ s', HasImport s' out.toList ∧ "UserCard" ∈ s'.clause.locals := by
  have hupper : cardRecord.type.toList.head?.any isAsciiUpper = true := by decide
  have hname : component cardRecord.type defaultComponent = "UserCard" := by decide +kernel
  have hpieces : importPieces cardScript =
      [] ++ .found (some ⟨[], ⟨false, some "UserCard", none, [], false⟩, '\'', "./UserCard", true⟩)
        "import UserCard from './UserCard';\n".toList ::
          [.plain "const card = <user-card/>;\n".toList] := by
    decide +kernel
  have htag : HasTag (Dialect.htmlTagName cardRecord).toList "const card = <user-card/>;\n".toList :=
    ⟨"const card = ".toList, [], '/', ">;\n".toList, by decide +kernel, .inl rfl, by decide⟩
  obtain ⟨out, hout, hkeeps⟩ := (component_tag_used cardRecord hupper).2 {} (.arr []) [] cardScript rfl
    ⟨.plain "const card = <user-card/>;\n".toList,
      by rw [hpieces]; exact List.mem_cons_of_mem _ List.mem_cons_self, rfl, htag⟩
  obtain ⟨s', himport, hmem, -⟩ := hkeeps _ _ _ _ hpieces (by rw [hname]; decide)
  exact ⟨hupper, rfl, out, hout, s', himport, hname ▸ hmem⟩

/-- A tag that stands in an import statement does not keep the import. -/
theorem component_tag_in_import : ¬ ∀ (r : Schema.Record) (code out : String),
    r.type.toList.head?.any isAsciiUpper = true →
      HasTag (Dialect.htmlTagName r).toList code.toList →
        Optimize.imports {} .null code = .ok out → ∀ s ∈ (imports code).map (·.1),
          component r.type defaultComponent ∈ s.clause.locals →
            ∃ s', HasImport s' out.toList ∧ component r.type defaultComponent ∈ s'.clause.locals := by
  intro h
  have hout : (Optimize.imports {} .null "import UserCard from './<user-card>';\n").toOption =
      some "" := by
    decide +kernel
  have htag : HasTag (Dialect.htmlTagName cardRecord).toList
      "import UserCard from './<user-card>';\n".toList :=
    ⟨"import UserCard from './".toList, [], '>', "';\n".toList, by decide +kernel, .inl rfl, by decide⟩
  obtain ⟨s', ⟨front, m, hempty, -, hfound, -⟩, -⟩ :=
    h cardRecord _ "" (by decide) htag (toOption_eq_some_iff.1 hout)
      ⟨[], ⟨false, some "UserCard", none, [], false⟩, '\'', "./<user-card>", true⟩
      (by decide +kernel) (by decide +kernel)
  -- nothing is found in nothing
  obtain ⟨-, hrest⟩ := List.append_eq_nil_iff.1 hempty.symm
  have hnone : importAt? [] = none := by decide
  rw [hrest, hnone] at hfound
  cases hfound

end ViewWriter.Script
