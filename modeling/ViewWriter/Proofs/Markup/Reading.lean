import Mathlib.Tactic.SplitIfs
import ViewWriter.Markup.Render
import ViewWriter.Proofs.Markup.Escaping
import ViewWriter.Proofs.Text.Pieces

/-! Reading markup. The marks of a text are cut out from left to right, and a stack of open elements
makes a forest of them. -/

namespace ViewWriter.Markup

open ViewWriter.Text

inductive Element where
  | mk (tag : String) (attributes : List (String × String)) (text : String)
    (children : List Element)

inductive Mark where
  | opening (tag : String) (attributes : List (String × String))
  | leaf (tag : String) (attributes : List (String × String))
  | closing (tag : String)
  | character (c : Char)

def isTagChar (c : Char) : Bool := isLetter c || isDigit c || c == '-'

def isNameChar (c : Char) : Bool :=
  !isBlank c && c != '"' && c != '\'' && c != '=' && c != '<' && c != '>' && c != '/'

def tagName? (cs : List Char) : Option (String × List Char) :=
  if (cs.takeWhile isTagChar).isEmpty then none
  else some (String.ofList (cs.takeWhile isTagChar), cs.dropWhile isTagChar)

/-- A name and a value between double quotes. -/
def attribute? (cs : List Char) : Option ((String × String) × List Char) :=
  match cs.dropWhile isNameChar with
  | '=' :: '"' :: after =>
    match cut '"' after with
    | (value, some rest) =>
      some ((String.ofList (cs.takeWhile isNameChar), String.ofList (decode value)), rest)
    | (_, none) => none
  | _ => none

lemma attribute?_length {cs rest : List Char} {a : String × String}
    (h : attribute? cs = some (a, rest)) : rest.length < cs.length := by
  unfold attribute? at h
  split at h
  · rename_i after hafter
    split at h
    · rename_i value later hcut
      obtain rfl := (Prod.mk.inj (Option.some.inj h)).2
      have hlater := congrArg List.length (of_cut hcut).1
      have hname := (List.dropWhile_suffix (l := cs) isNameChar).length_le
      rw [hafter] at hname
      simp only [List.length_append, List.length_cons] at hlater hname
      omega
    · cases h
  · cases h

/-- The attributes up to the end of a tag, whether the tag is closed in itself, and what follows. -/
def attributes? (cs : List Char) : Option (List (String × String) × Bool × List Char) :=
  match cs with
  | '>' :: rest => some ([], false, rest)
  | ' ' :: '/' :: '>' :: rest => some ([], true, rest)
  | ' ' :: rest =>
    match _h : attribute? rest with
    | some (a, after) => (attributes? after).map fun r => (a :: r.1, r.2)
    | none => none
  | _ => none
  termination_by cs.length
  decreasing_by
    have := attribute?_length _h
    simp only [List.length_cons]
    omega

lemma attributes?_length {cs rest : List Char} {as : List (String × String)} {closed : Bool}
    (h : attributes? cs = some (as, closed, rest)) : rest.length < cs.length := by
  induction hn : cs.length using Nat.strong_induction_on generalizing cs as with
  | _ n ih =>
    rw [attributes?.eq_def] at h
    split at h
    · simp only [Option.some.injEq, Prod.mk.injEq] at h
      simp [← hn, ← h.2.2]
    · simp only [Option.some.injEq, Prod.mk.injEq] at h
      simp only [← hn, ← h.2.2, List.length_cons]
      omega
    · split at h
      · rename_i after hattribute
        obtain ⟨r, hr, heq⟩ := Option.map_eq_some_iff.1 h
        have hafter := attribute?_length hattribute
        have hr : attributes? after = some (r.1, closed, rest) := by
          rw [hr, ← (Prod.mk.inj heq).2]
        simp only [List.length_cons] at hn
        have := ih after.length (by omega) hr rfl
        omega
      · cases h
    · cases h

def startMark (tag : String) (attributes : List (String × String)) (closed : Bool) : Mark :=
  if closed || voidElements.contains (lower tag) then .leaf tag attributes
  else .opening tag attributes

/-- The tag whose inside the text starts with. -/
def tagMark? (cs : List Char) : Option (Mark × List Char) :=
  match cs with
  | '/' :: rest =>
    match tagName? rest with
    | some (tag, '>' :: after) => some (.closing tag, after)
    | _ => none
  | _ =>
    match tagName? cs with
    | some (tag, more) => (attributes? more).map fun r => (startMark tag r.1 r.2.1, r.2.2)
    | none => none

lemma tagName?_length {cs rest : List Char} {tag : String} (h : tagName? cs = some (tag, rest)) :
    rest.length ≤ cs.length := by
  unfold tagName? at h
  split_ifs at h
  obtain rfl := (Prod.mk.inj (Option.some.inj h)).2
  exact (List.dropWhile_suffix _).length_le

lemma tagMark?_length {cs rest : List Char} {m : Mark} (h : tagMark? cs = some (m, rest)) :
    rest.length < cs.length := by
  unfold tagMark? at h
  split at h
  · split at h
    · rename_i tag after htag
      obtain rfl := (Prod.mk.inj (Option.some.inj h)).2
      have := tagName?_length htag
      simp only [List.length_cons] at this ⊢
      omega
    · cases h
  · split at h
    · rename_i tag more htag
      obtain ⟨⟨as, closed, after⟩, hr, heq⟩ := Option.map_eq_some_iff.1 h
      obtain rfl : after = rest := (Prod.mk.inj heq).2
      have := tagName?_length htag
      have := attributes?_length hr
      omega
    · cases h

def marks? (cs : List Char) : Option (List Mark) :=
  match cs with
  | [] => some []
  | '<' :: rest =>
    match _h : tagMark? rest with
    | some (m, after) => (marks? after).map (m :: ·)
    | none => none
  | c :: rest => (marks? rest).map (.character c :: ·)
  termination_by cs.length
  decreasing_by
    · have := tagMark?_length _h
      simp only [List.length_cons]
      omega
    · simp

/-- An element that is not closed yet, with the text and the children in it so far. -/
structure Frame where
  tag : String
  attributes : List (String × String)
  text : List Char
  children : List Element

namespace Frame

def write (f : Frame) (cs : List Char) : Frame := { f with text := f.text ++ cs }

def append (f : Frame) (es : List Element) : Frame := { f with children := f.children ++ es }

/-- An element holds a text or children; around children nothing but white space may stand. -/
def close? (f : Frame) : Option Element :=
  if f.children.isEmpty then some (.mk f.tag f.attributes (String.ofList (decode f.text)) [])
  else if f.text.all isBlank then some (.mk f.tag f.attributes "" f.children)
  else none

def document : Frame := ⟨"", [], [], []⟩

end Frame

/-- The forest of a list of marks; every tag closes the element that was opened last. -/
def build (top : Frame) (outer : List Frame) : List Mark → Option (List Element)
  | [] => if outer.isEmpty && top.text.all isBlank then some top.children else none
  | .opening tag attributes :: ms => build ⟨tag, attributes, [], []⟩ (top :: outer) ms
  | .leaf tag attributes :: ms => build (top.append [.mk tag attributes "" []]) outer ms
  | .closing tag :: ms =>
    match outer with
    | [] => none
    | below :: outer =>
      if tag = top.tag then top.close?.bind fun e => build (below.append [e]) outer ms else none
  | .character c :: ms => build (top.write [c]) outer ms

def readMarkup (s : String) : Option (List Element) :=
  (marks? s.toList).bind (build .document [])

/-- Wherever the text stands, its marks are these. -/
def Reads (cs : List Char) (ms : List Mark) : Prop :=
  ∀ rest, marks? (cs ++ rest) = (marks? rest).map (ms ++ ·)

/-- Wherever the marks stand, they add these elements, and white space around them. -/
def Grows (ms : List Mark) (es : List Element) : Prop :=
  ∀ top outer, ∃ blanks : List Char, (∀ c ∈ blanks, isBlank c) ∧
    ∀ rest, build top outer (ms ++ rest) = build ((top.write blanks).append es) outer rest

/-- A text that shows these elements, with white space around them. -/
def Shows (cs : List Char) (es : List Element) : Prop := ∃ ms, Reads cs ms ∧ Grows ms es

section Marks

variable {cs ds rest : List Char} {ms ns : List Mark} {tag : String}

lemma Reads.append (h : Reads cs ms) (hd : Reads ds ns) : Reads (cs ++ ds) (ms ++ ns) := by
  intro rest
  rw [List.append_assoc, h, hd, Option.map_map]
  congr 1
  funext us
  exact (List.append_assoc ms ns us).symm

lemma reads_characters (h : '<' ∉ cs) : Reads cs (cs.map .character) := by
  intro rest
  induction cs with
  | nil => simp
  | cons c cs ih =>
    rw [List.mem_cons, not_or] at h
    rw [List.cons_append, marks?, ih h.2, Option.map_map]
    · rfl
    · exact fun hc => h.1 hc.symm

lemma tagName?_append (h : ∀ c ∈ tag.toList, isTagChar c) (hne : tag ≠ "") {c : Char}
    (hc : isTagChar c = false) (rest : List Char) :
    tagName? (tag.toList ++ c :: rest) = some (tag, c :: rest) := by
  rw [tagName?, takeWhile_stop h hc, dropWhile_stop h hc, String.ofList_toList, if_neg]
  simpa using hne

lemma marks?_tag {m : Mark} (h : tagMark? cs = some (m, rest)) :
    marks? ('<' :: cs) = (marks? rest).map (m :: ·) := by
  rw [marks?, h]

lemma reads_closing (h : ∀ c ∈ tag.toList, isTagChar c) (hne : tag ≠ "") :
    Reads ('<' :: '/' :: (tag.toList ++ ['>'])) [.closing tag] := by
  intro rest
  have htag : tagMark? ('/' :: (tag.toList ++ '>' :: rest)) = some (.closing tag, rest) := by
    rw [tagMark?, tagName?_append h hne (by decide)]
    rfl
  rw [List.cons_append, List.cons_append, List.append_assoc, List.singleton_append,
    marks?_tag htag]
  rfl

def attributeChars (attributes : List (String × String)) : List Char :=
  attributes.flatMap fun a =>
    ' ' :: (a.1.toList ++ '=' :: '"' :: (a.2.toList.flatMap quotedEntity ++ ['"']))

def endOfTag (closed : Bool) : List Char := if closed then [' ', '/', '>'] else ['>']

lemma attribute?_append {name : String} (h : ∀ c ∈ name.toList, isNameChar c) (value : String)
    (rest : List Char) :
    attribute? (name.toList ++ '=' :: '"' :: (value.toList.flatMap quotedEntity ++ '"' :: rest)) =
      some ((name, value), rest) := by
  have hequals : isNameChar '=' = false := by decide
  have hvalue : '"' ∉ value.toList.flatMap quotedEntity := by
    simpa using fun c _ => quote_notMem_quotedEntity c
  rw [attribute?, dropWhile_stop h hequals, takeWhile_stop h hequals]
  simp only [cut_append hvalue, decode_flatMap escapes_quoted, String.ofList_toList]

lemma attributes?_append {attributes : List (String × String)}
    (h : ∀ a ∈ attributes, ∀ c ∈ a.1.toList, isNameChar c) (closed : Bool) (rest : List Char) :
    attributes? (attributeChars attributes ++ (endOfTag closed ++ rest)) =
      some (attributes, closed, rest) := by
  induction attributes with
  | nil => cases closed <;> simp [attributeChars, endOfTag, attributes?]
  | cons a attributes ih =>
    have hname := h a List.mem_cons_self
    have hread := attribute?_append hname a.2
      (attributeChars attributes ++ (endOfTag closed ++ rest))
    have hslash : ∀ more, a.1.toList ++ '=' :: '"' :: (a.2.toList.flatMap quotedEntity ++
        '"' :: (attributeChars attributes ++ (endOfTag closed ++ rest))) ≠ '/' :: '>' :: more := by
      intro more heq
      rcases hcs : a.1.toList with _ | ⟨c, cs⟩
      · rw [hcs] at heq
        simp at heq
      · rw [hcs, List.cons_append, List.cons.injEq] at heq
        have := hname c (hcs ▸ List.mem_cons_self)
        rw [heq.1] at this
        exact absurd this (by decide)
    have hcons : attributeChars (a :: attributes) ++ (endOfTag closed ++ rest) =
        ' ' :: (a.1.toList ++ '=' :: '"' :: (a.2.toList.flatMap quotedEntity ++
          '"' :: (attributeChars attributes ++ (endOfTag closed ++ rest)))) := by
      simp [attributeChars]
    rw [hcons, attributes?, hread]
    · simp only [ih fun b hb => h b (List.mem_cons_of_mem a hb), Option.map_some]
    · exact hslash

lemma reads_start {attributes : List (String × String)} (h : ∀ c ∈ tag.toList, isTagChar c)
    (hne : tag ≠ "") (ha : ∀ a ∈ attributes, ∀ c ∈ a.1.toList, isNameChar c) (closed : Bool) :
    Reads ('<' :: (tag.toList ++ (attributeChars attributes ++ endOfTag closed)))
      [startMark tag attributes closed] := by
  intro rest
  obtain ⟨c, more, hmore, hc⟩ : ∃ c more,
      attributeChars attributes ++ (endOfTag closed ++ rest) = c :: more ∧ isTagChar c = false := by
    cases attributes with
    | nil => cases closed <;> exact ⟨_, _, rfl, by decide⟩
    | cons a attributes => exact ⟨' ', _, rfl, by decide⟩
  have htag : tagMark? (tag.toList ++ (attributeChars attributes ++ (endOfTag closed ++ rest))) =
      some (startMark tag attributes closed, rest) := by
    rw [tagMark?, hmore, tagName?_append h hne hc, ← hmore]
    · simp only [attributes?_append ha closed rest, Option.map_some]
    · intro after heq
      rcases hcs : tag.toList with _ | ⟨d, ds⟩
      · exact hne (String.toList_eq_nil_iff.1 hcs)
      · rw [hcs, List.cons_append, List.cons.injEq] at heq
        have := h d (hcs ▸ List.mem_cons_self)
        rw [heq.1] at this
        exact absurd this (by decide)
  rw [List.cons_append, List.append_assoc, List.append_assoc, marks?_tag htag]
  rfl

end Marks

section Growth

variable {ms ns : List Mark} {es fs : List Element} {tag : String}
  {attributes : List (String × String)}

lemma Grows.append (h : Grows ms es) (hn : Grows ns fs) : Grows (ms ++ ns) (es ++ fs) := by
  intro top outer
  obtain ⟨before, hbefore, hms⟩ := h top outer
  obtain ⟨after, hafter, hns⟩ := hn ((top.write before).append es) outer
  refine ⟨before ++ after, ?_, fun rest => ?_⟩
  · intro c hc
    exact (List.mem_append.1 hc).elim (hbefore c) (hafter c)
  · rw [List.append_assoc, hms, hns]
    simp [Frame.write, Frame.append]

lemma build_characters (top : Frame) (outer : List Frame) (cs : List Char) (rest : List Mark) :
    build top outer (cs.map .character ++ rest) = build (top.write cs) outer rest := by
  induction cs generalizing top with
  | nil => simp [Frame.write]
  | cons c cs ih =>
    rw [List.map_cons, List.cons_append, build, ih]
    simp [Frame.write]

lemma grows_blank {cs : List Char} (h : ∀ c ∈ cs, isBlank c) : Grows (cs.map .character) [] :=
  fun top outer => ⟨cs, h, fun rest => by simp [build_characters, Frame.append]⟩

lemma grows_leaf : Grows [.leaf tag attributes] [.mk tag attributes "" []] :=
  fun top outer => ⟨[], by simp, fun rest => by simp [build, Frame.write]⟩

lemma grows_text (cs : List Char) :
    Grows (.opening tag attributes :: (cs.map .character ++ [.closing tag]))
      [.mk tag attributes (String.ofList (decode cs)) []] :=
  fun top outer => ⟨[], by simp, fun rest => by
    simp [build, build_characters, Frame.write, Frame.close?]⟩

lemma Grows.element (h : Grows ms es) (hne : es ≠ []) :
    Grows (.opening tag attributes :: (ms ++ [.closing tag])) [.mk tag attributes "" es] := by
  intro top outer
  obtain ⟨blanks, hblanks, hms⟩ := h ⟨tag, attributes, [], []⟩ (top :: outer)
  refine ⟨[], by simp, fun rest => ?_⟩
  rw [List.cons_append, build, List.append_assoc, hms]
  simp only [List.singleton_append, build, Frame.write, Frame.append, Frame.close?,
    List.nil_append, List.isEmpty_eq_false_iff.2 hne, List.all_eq_true.2 hblanks]
  simp

end Growth

section Elements

variable {cs ds : List Char} {es fs : List Element} {tag : String}
  {attributes : List (String × String)}

lemma Shows.append (h : Shows cs es) (hd : Shows ds fs) : Shows (cs ++ ds) (es ++ fs) := by
  obtain ⟨ms, hreads, hgrows⟩ := h
  obtain ⟨ns, hreads', hgrows'⟩ := hd
  exact ⟨ms ++ ns, hreads.append hreads', hgrows.append hgrows'⟩

lemma lt_notMem_of_blank (h : ∀ c ∈ cs, isBlank c) : '<' ∉ cs :=
  fun hlt => absurd (h '<' hlt) (by decide)

lemma shows_blank (h : ∀ c ∈ cs, isBlank c) : Shows cs [] :=
  ⟨cs.map .character, reads_characters (lt_notMem_of_blank h), grows_blank h⟩

/-- A start tag with these attributes. -/
structure IsStart (tag : String) (attributes : List (String × String)) : Prop where
  ne_empty : tag ≠ ""
  chars : ∀ c ∈ tag.toList, isTagChar c
  names : ∀ a ∈ attributes, ∀ c ∈ a.1.toList, isNameChar c

def startChars (tag : String) (attributes : List (String × String)) (closed : Bool) : List Char :=
  '<' :: (tag.toList ++ (attributeChars attributes ++ endOfTag closed))

def endChars (tag : String) : List Char := '<' :: '/' :: (tag.toList ++ ['>'])

lemma shows_leaf (h : IsStart tag attributes) {closed : Bool}
    (hclosed : (closed || voidElements.contains (lower tag)) = true) :
    Shows (startChars tag attributes closed) [.mk tag attributes "" []] := by
  refine ⟨_, reads_start h.chars h.ne_empty h.names closed, ?_⟩
  rw [startMark, if_pos hclosed]
  exact grows_leaf

lemma reads_opening (h : IsStart tag attributes) (hv : voidElements.contains (lower tag) = false) :
    Reads (startChars tag attributes false) [.opening tag attributes] := by
  have hreads := reads_start h.chars h.ne_empty h.names false
  rwa [startMark, hv, if_neg (by decide)] at hreads

lemma shows_text (h : IsStart tag attributes) (hv : voidElements.contains (lower tag) = false)
    (hcs : '<' ∉ cs) :
    Shows (startChars tag attributes false ++ (cs ++ endChars tag))
      [.mk tag attributes (String.ofList (decode cs)) []] :=
  have hend := reads_closing h.chars h.ne_empty
  ⟨_, (reads_opening h hv).append ((reads_characters hcs).append hend), grows_text cs⟩

lemma Shows.element (hs : Shows cs es) (hne : es ≠ []) (h : IsStart tag attributes)
    (hv : voidElements.contains (lower tag) = false) :
    Shows (startChars tag attributes false ++ (cs ++ endChars tag)) [.mk tag attributes "" es] := by
  obtain ⟨ms, hreads, hgrows⟩ := hs
  exact ⟨_, (reads_opening h hv).append (hreads.append (reads_closing h.chars h.ne_empty)),
    hgrows.element hne⟩

/-- What shows elements is read as these elements. -/
lemma readMarkup_of_shows {s : String} (h : Shows s.toList es) : readMarkup s = some es := by
  obtain ⟨ms, hreads, hgrows⟩ := h
  have hmarks : marks? s.toList = some ms := by
    have := hreads []
    rwa [List.append_nil, marks?, Option.map_some, List.append_nil] at this
  obtain ⟨blanks, hblanks, hbuild⟩ := hgrows .document []
  have := hbuild []
  rw [List.append_nil] at this
  rw [readMarkup, hmarks, Option.bind_some, this, build]
  simpa [Frame.document, Frame.write, Frame.append] using hblanks

end Elements

end ViewWriter.Markup
