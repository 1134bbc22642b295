import ViewWriter.Analysis.Context
import ViewWriter.Proofs.Analysis.Declarations
import ViewWriter.Proofs.Analysis.Styles
import ViewWriter.Proofs.Json.Texts
import ViewWriter.Proofs.Name.Characters

/-! The texts that an analysis takes over. If those of the nodes avoid a needle, the declarations that
are found in the nodes do so too. -/

namespace ViewWriter.Analysis

open ViewWriter.Text ViewWriter.Schema

/-! What a declaration brings into a context. -/

structure StateVariable.Avoids (n : Needle) (x : StateVariable) : Prop where
  name : Name.IsNamed x.name
  setter : Name.IsNamed x.setter
  initial : x.initial.Avoids n
  type : x.type.Avoids n

structure Effect.Avoids (n : Needle) (x : Effect) : Prop where
  body : n.Avoids x.body.toList
  cleanup : x.cleanup.Avoids n
  deps : ∀ d ∈ x.deps, n.Avoids d.toList

structure Property.Avoids (n : Needle) (p : Property) : Prop where
  name : Name.IsNamed p.name
  type : p.type.Avoids n
  default : ∀ v ∈ p.default, v.Avoids n

structure Function.Avoids (n : Needle) (f : Function) : Prop where
  name : Name.IsNamed f.name
  params : ∀ s ∈ f.params, n.Avoids s.toList
  body : n.Avoids f.body.toList

structure Import.Avoids (n : Needle) (i : Import) : Prop where
  name : '/' ∉ i.name.toList
  source : n.Avoids i.source.toList

section Fields

variable {n : Needle}

lemma avoids_fields {fields : Table Json} (hkeys : ∀ k ∈ fields.keys, '/' ∉ k.toList)
    (h : ∀ v ∈ fields.map (·.2), v.Avoids n) : (Json.obj fields).Avoids n :=
  Json.avoids_obj.2 fun _ he => ⟨Needle.avoids_of_notMem_slash (hkeys _ (List.mem_map_of_mem he)),
    h _ (List.mem_map_of_mem he)⟩

lemma avoids_literal {v : Json} (h : v.Avoids n) : n.Avoids (literal v).toList :=
  Json.avoids_compact .unicode v h

lemma avoids_joinCommas {xs : List String} (h : ∀ x ∈ xs, n.Avoids x.toList) :
    n.Avoids (join ", " xs).toList := by
  rw [join, String.toList_ofList]
  exact Needle.avoids_joinWith (by decide) (List.forall_mem_map.2 h)

lemma StateVariable.Avoids.fields {x : StateVariable} (h : x.Avoids n) :
    (Json.obj x.toFields).Avoids n := by
  refine avoids_fields (by simp only [toFields, Table.keys, List.map_cons, List.map_nil]; decide) ?_
  simp only [toFields, List.map_cons, List.map_nil, List.forall_mem_cons, Json.avoids_str]
  exact ⟨h.name.avoids n, h.setter.avoids n, avoids_literal h.initial, h.type, fun _ h => by cases h⟩

lemma Effect.Avoids.fields {x : Effect} (h : x.Avoids n) : (Json.obj x.toFields).Avoids n := by
  refine avoids_fields (by simp only [toFields, Table.keys, List.map_cons, List.map_nil]; decide) ?_
  simp only [toFields, List.map_cons, List.map_nil, List.forall_mem_cons, Json.avoids_str,
    Json.avoids_ofStrings]
  exact ⟨h.body, h.cleanup, Json.avoids_bool _, h.deps, avoids_joinCommas h.deps,
    fun _ h => by cases h⟩

lemma Property.Avoids.fields {p : Property} (h : p.Avoids n) : (Json.obj p.toFields).Avoids n := by
  have hraw : (p.default.getD .null).Avoids n := by
    cases hdefault : p.default with
    | none => exact Json.avoids_null
    | some v => exact h.default v hdefault
  have hwritten : (Json.ofOption (p.default.map literal)).Avoids n := by
    cases hdefault : p.default with
    | none => exact Json.avoids_null
    | some v => exact Json.avoids_str.2 (avoids_literal (h.default v hdefault))
  refine avoids_fields (by simp only [toFields, Table.keys, List.map_cons, List.map_nil]; decide) ?_
  simp only [toFields, List.map_cons, List.map_nil, List.forall_mem_cons, Json.avoids_str]
  exact ⟨h.name.avoids n, h.type, Json.avoids_bool _, Json.avoids_bool _, hwritten, hraw,
    fun _ h => by cases h⟩

lemma Property.Avoids.pattern {p : Property} (h : p.Avoids n) : n.Avoids p.pattern.toList := by
  rw [Property.pattern]
  cases hdefault : p.default with
  | none => exact h.name.avoids n
  | some v => exact (h.name.avoids n).joined (by decide) (avoids_literal (h.default v hdefault))

lemma Function.Avoids.fields {f : Function} (h : f.Avoids n) : (Json.obj f.toFields).Avoids n := by
  refine avoids_fields (by simp only [toFields, Table.keys, List.map_cons, List.map_nil]; decide) ?_
  simp only [toFields, List.map_cons, List.map_nil, List.forall_mem_cons, Json.avoids_str,
    Json.avoids_ofStrings]
  exact ⟨h.name.avoids n, h.params, avoids_joinCommas h.params, h.body, fun _ h => by cases h⟩

lemma avoids_float (x : Binary64) : (Json.float x).Avoids n := fun _ h => by cases h

lemma Import.Avoids.fields {i : Import} (h : i.Avoids n) : (Json.obj i.toFields).Avoids n := by
  refine avoids_fields (by simp only [toFields, Table.keys, List.map_cons, List.map_nil]; decide) ?_
  simp only [toFields, List.map_cons, List.map_nil, List.forall_mem_cons, Json.avoids_str]
  exact ⟨Needle.avoids_of_notMem_slash h.name, h.source, avoids_float _,
    (Name.isNamed_kebab _).avoids n, fun _ h => by cases h⟩

lemma avoids_objects {xs : List (Table Json)} (h : ∀ x ∈ xs, (Json.obj x).Avoids n) :
    (objects xs).Avoids n :=
  Json.avoids_arr.2 (List.forall_mem_map.2 h)

end Fields

/-! The names in declarations. -/

section Names

variable {records : List Record}

lemma named_stateVariable {x : StateVariable} (h : x ∈ stateVariables records) :
    Name.IsNamed x.name ∧ Name.IsNamed x.setter := by
  obtain ⟨given, -, hname⟩ := exists_stateVariable.1 ⟨x, h, rfl⟩
  rw [StateVariable.setter, ← hname]
  exact ⟨Name.isNamed_variableName given, Name.isNamed_setter given⟩

lemma named_property {p : Property} (h : p ∈ properties records) : Name.IsNamed p.name := by
  obtain ⟨given, hname⟩ := name_of_mem_properties h
  rw [hname]
  exact Name.isNamed_variableName given

lemma named_function {fs : List Function} (hfs : functions records = .ok fs) {f : Function}
    (h : f ∈ fs) : Name.IsNamed f.name := by
  obtain ⟨given, -, hname⟩ := (exists_function hfs).1 ⟨f, h, rfl⟩
  rw [← hname]
  exact Name.isNamed_variableName given

lemma isNamed_componentForm (type : String) : Name.IsNamed (componentForm type) :=
  Name.isNamed_component (by decide) type

lemma slash_notMem_binds {name : String} (h : Binds records name) : '/' ∉ name.toList := by
  cases h with
  | declared _ hd => exact Name.slash_notMem_of_binding hd.binding
  | component _ _ => exact (isNamed_componentForm _).slash_notMem

end Names

/-! What is found in nodes. -/

section Found

variable {n : Needle} {records : List Record} {key keyName valueName s : String} {v : Json}
  {entry : Table Json}

lemma avoids_entries (hkey : '/' ∉ keyName.toList) (hvalue : '/' ∉ valueName.toList)
    (hv : v.Avoids n) : ∀ entry ∈ entries v keyName valueName, (Json.obj entry).Avoids n := by
  cases v with
  | obj fields =>
    refine List.forall_mem_map.2 fun e he => ?_
    obtain ⟨hname, hmember⟩ := Json.avoids_obj.1 hv e he
    refine Json.avoids_obj.2 fun d hd => ?_
    rcases Table.mem_of_mem_merge hd with hd | hd
    · cases hd
    · rcases List.mem_cons.1 hd with rfl | hd
      · exact ⟨Needle.avoids_of_notMem_slash hkey, Json.avoids_str.2 hname⟩
      · rw [List.mem_singleton.1 hd]
        exact ⟨Needle.avoids_of_notMem_slash hvalue, hmember⟩
  | arr items =>
    intro entry hentry
    obtain ⟨item, hitem, hfields⟩ := List.mem_filterMap.1 hentry
    cases item with
    | obj fields =>
      cases hfields
      exact Json.avoids_arr.1 hv _ hitem
    | _ => cases hfields
  | _ => exact fun _ h => by cases h

lemma avoids_declared (hkey : '/' ∉ keyName.toList) (hvalue : '/' ∉ valueName.toList)
    (h : ∀ r ∈ records, (Json.obj r.props).Avoids n) :
    ∀ entry ∈ declared records key keyName valueName, (Json.obj entry).Avoids n := by
  intro entry hentry
  obtain ⟨r, hr, hentry⟩ := List.mem_flatMap.1 hentry
  exact avoids_entries hkey hvalue ((h r hr).member key) entry hentry

lemma avoids_givenText (h : (Json.obj entry).Avoids n) (hs : givenText? entry key = some s) :
    n.Avoids s.toList := by
  obtain ⟨-, hs⟩ := Option.ite_none_right_eq_some.1 hs
  cases hs
  exact (h.member key).display

lemma avoids_textMember (h : (Json.obj entry).Avoids n) (key : String) :
    n.Avoids (textMember entry key).toList :=
  ((h.member key).orElse (Json.avoids_str.2 Needle.avoids_nil)).display

lemma avoids_texts {xs : List String} (hv : v.Avoids n) (h : texts v = .ok xs) :
    ∀ x ∈ xs, n.Avoids x.toList := by
  obtain ⟨items, hitems, h⟩ := bind_eq_ok_iff.1 h
  cases h
  have hlist : (v.orElse (.arr [])).Avoids n := hv.orElse (Json.avoids_arr.2 fun _ h => by cases h)
  exact List.forall_mem_map.2 fun item hitem => (hlist.elements hitems item hitem).display

lemma mem_of_mem_firstByName {α : Type} {name : α → String} {xs : List α} {x : α}
    (h : x ∈ firstByName name xs) : x ∈ xs := by
  have hgo : ∀ seen : List String, x ∈ firstByName.go name seen xs → x ∈ xs := by
    clear h
    induction xs with
    | nil => exact fun _ h => h
    | cons y rest ih =>
      intro seen h
      rw [firstByName.go] at h
      split_ifs at h
      · exact List.mem_cons_of_mem _ (ih _ h)
      · rcases List.mem_cons.1 h with rfl | h
        · exact List.mem_cons_self
        · exact List.mem_cons_of_mem _ (ih _ h)
  exact hgo [] h

lemma avoids_inferType (v : Json) : (Json.str (inferType v)).Avoids n := by
  rw [Json.avoids_str]
  refine Needle.avoids_of_notMem_slash ?_
  cases v <;> (rw [inferType]; decide)

lemma avoids_stateVariables (h : ∀ r ∈ records, (Json.obj r.props).Avoids n) :
    ∀ x ∈ stateVariables records, x.Avoids n := by
  intro x hx
  obtain ⟨hname, hsetter⟩ := named_stateVariable hx
  obtain ⟨entry, hentry, hx⟩ := List.mem_filterMap.1 (mem_of_mem_firstByName hx)
  obtain ⟨given, -, rfl⟩ := Option.map_eq_some_iff.1 hx
  have hfields := avoids_declared (by decide) (by decide) h entry hentry
  exact
    { name := hname
      setter := hsetter
      initial := hfields.member "initial"
      type := (hfields.member "type").orElse (avoids_inferType _) }

lemma avoids_properties (h : ∀ r ∈ records, (Json.obj r.props).Avoids n) :
    ∀ p ∈ properties records, p.Avoids n := by
  intro p hp
  have hname := named_property hp
  obtain ⟨entry, hentry, hp⟩ := List.mem_filterMap.1 (mem_of_mem_firstByName hp)
  obtain ⟨given, -, rfl⟩ := Option.map_eq_some_iff.1 hp
  have hfields := avoids_declared (by decide) (by decide) h entry hentry
  refine
    { name := hname
      type := (hfields.member "type").orElse ?_
      default := fun v hv => hfields.get? hv }
  split
  · exact avoids_inferType _
  · exact Json.avoids_str.2 (Needle.avoids_of_notMem_slash (by decide))

lemma avoids_ofEntry {x : Effect} (h : (Json.obj entry).Avoids n) (he : Effect.ofEntry entry = .ok x) :
    x.Avoids n := by
  obtain ⟨deps, hdeps, he⟩ := bind_eq_ok_iff.1 he
  cases he
  exact
    { body := avoids_textMember h "body"
      cleanup := (h.member "cleanup").orElse Json.avoids_null
      deps := avoids_texts (h.member "deps") hdeps }

lemma avoids_ofJson {e : Effect} (hv : v.Avoids n) (he : Effect.ofJson? v = .ok (some e)) :
    e.Avoids n := by
  cases v with
  | str body =>
    cases he
    exact ⟨Json.avoids_str.1 hv, Json.avoids_null, fun _ h => by cases h⟩
  | obj fields =>
    obtain ⟨e', he', heq⟩ := map_eq_ok_iff.1 he
    cases heq
    exact avoids_ofEntry hv he'
  | _ => cases he

lemma avoids_effectItems {items : List Json} (hv : v.Avoids n) (h : effectItems v = .ok items) :
    ∀ item ∈ items, item.Avoids n := by
  have hlist : (v.orElse (.arr [])).Avoids n := hv.orElse (Json.avoids_arr.2 fun _ h => by cases h)
  rw [effectItems] at h
  split at h
  · rename_i s hs
    cases h
    exact List.forall_mem_singleton.2 (hs ▸ hlist)
  · rename_i fields hfields
    cases h
    exact List.forall_mem_singleton.2 (hfields ▸ hlist)
  · exact hlist.elements h

lemma avoids_effects {es : List Effect} (h : ∀ r ∈ records, (Json.obj r.props).Avoids n)
    (hes : effects records = .ok es) : ∀ x ∈ es, x.Avoids n := by
  obtain ⟨parts, hparts, hes⟩ := bind_eq_ok_iff.1 hes
  cases hes
  intro x hx
  obtain ⟨part, hpart, hx⟩ := List.mem_flatten.1 hx
  obtain ⟨r, hr, hfound⟩ := exists_of_mem_right (mapM_eq_ok_iff.1 hparts) hpart
  obtain ⟨items, hitems, hfound⟩ := bind_eq_ok_iff.1 hfound
  obtain ⟨found, hfounds, hfound⟩ := bind_eq_ok_iff.1 hfound
  cases hfound
  obtain ⟨read, hmem, heq⟩ := List.mem_filterMap.1 hx
  cases heq
  obtain ⟨item, hitem, hread⟩ := exists_of_mem_right (mapM_eq_ok_iff.1 hfounds) hmem
  exact avoids_ofJson (avoids_effectItems ((h r hr).member "effects") hitems item hitem) hread

lemma avoids_functionsOf {entries : List (Table Json)} {seen : List String} {fs : List Function}
    (h : ∀ entry ∈ entries, (Json.obj entry).Avoids n) (hfs : functionsOf seen entries = .ok fs) :
    ∀ f ∈ fs, f.Avoids n := by
  induction entries generalizing seen fs with
  | nil =>
    cases hfs
    exact fun _ h => by cases h
  | cons entry rest ih =>
    obtain ⟨hentry, hrest⟩ := List.forall_mem_cons.1 h
    rw [functionsOf] at hfs
    split at hfs
    · exact ih hrest hfs
    · rename_i given hgiven
      dsimp only at hfs
      split_ifs at hfs
      · exact ih hrest hfs
      · obtain ⟨params, hparams, hfs⟩ := bind_eq_ok_iff.1 hfs
        obtain ⟨others, hothers, hfs⟩ := bind_eq_ok_iff.1 hfs
        cases hfs
        -- for any name and body, so that neither is unfolded
        have hmade : ∀ {name body : String}, Name.IsNamed name → n.Avoids body.toList →
            Function.Avoids n ⟨name, params, body⟩ := fun hname hbody =>
          { name := hname
            params := avoids_texts (hentry.member "params") hparams
            body := hbody }
        exact List.forall_mem_cons.2
          ⟨hmade (Name.isNamed_variableName given) (avoids_textMember hentry "body"), ih hrest hothers⟩

lemma avoids_functions {fs : List Function} (h : ∀ r ∈ records, (Json.obj r.props).Avoids n)
    (hfs : functions records = .ok fs) : ∀ f ∈ fs, f.Avoids n :=
  avoids_functionsOf (avoids_declared (by decide) (by decide) h) hfs

lemma avoids_declaredImportsOf {entries : List (Table Json)} {seen : List String} {is : List Import}
    (h : ∀ entry ∈ entries, (Json.obj entry).Avoids n) (his : declaredImportsOf seen entries = .ok is) :
    ∀ i ∈ is, i.Avoids n := by
  induction entries generalizing seen is with
  | nil =>
    cases his
    exact fun _ h => by cases h
  | cons entry rest ih =>
    obtain ⟨hentry, hrest⟩ := List.forall_mem_cons.1 h
    rw [declaredImportsOf] at his
    split at his
    · rename_i name source hname hsource
      split_ifs at his with hpass
      · exact ih hrest his
      · obtain ⟨weight, -, his⟩ := bind_eq_ok_iff.1 his
        obtain ⟨others, hothers, his⟩ := bind_eq_ok_iff.1 his
        cases his
        simp only [Bool.or_eq_true, Bool.not_eq_true', not_or, Bool.not_eq_false] at hpass
        exact List.forall_mem_cons.2 ⟨⟨Name.slash_notMem_of_binding hpass.1,
          avoids_givenText hentry hsource⟩, ih hrest hothers⟩
    · exact ih hrest his

lemma avoids_implicitImports {sections : List (List Record)} {seen : List String}
    (h : ∀ name, Name.IsNamed name → n.Avoids ("./" ++ name).toList) :
    ∀ i ∈ implicitImports sections seen records, i.Avoids n := by
  induction records generalizing seen with
  | nil => exact fun _ h => by cases h
  | cons r rest ih =>
    rw [implicitImports]
    split_ifs
    · exact ih
    · have hname := isNamed_componentForm r.type
      exact List.forall_mem_cons.2 ⟨⟨hname.slash_notMem, h _ hname⟩, ih⟩

/-- An import of a component next to the view has its name after a point and a slash. -/
lemma avoids_imports {sections : List (List Record)} {is : List Import}
    (h : ∀ r ∈ records, (Json.obj r.props).Avoids n)
    (hnamed : ∀ name, Name.IsNamed name → n.Avoids ("./" ++ name).toList)
    (his : imports records sections = .ok is) : ∀ i ∈ is, i.Avoids n := by
  obtain ⟨given, hgiven, his⟩ := bind_eq_ok_iff.1 his
  cases his
  exact List.forall_mem_append.2
    ⟨avoids_declaredImportsOf (avoids_declared (by decide) (by decide) h) hgiven,
      avoids_implicitImports hnamed⟩

end Found

end ViewWriter.Analysis
