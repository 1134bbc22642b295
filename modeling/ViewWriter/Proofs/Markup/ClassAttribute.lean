import Mathlib.Data.List.Forall2
import Mathlib.Tactic.SplitIfs
import ViewWriter.Markup.Render
import ViewWriter.Proofs.Markup.Escaping
import ViewWriter.Proofs.Text.Pieces

/-! Looking up style classes. Where styles are modules, a node with a class writes a look-up of it into
the markup. -/

namespace ViewWriter.Markup.Dialect

open ViewWriter.Text ViewWriter.Schema

/-- The class attribute of a node that looks up its style class. -/
def lookup? (d : Dialect) (classes : Table String) (r : Record) : Option String :=
  d.moduleClass.bind fun write =>
    (styleClassOf classes r).map fun c => write c (staticClasses r.props)

variable {d : Dialect} {classes : Table String} {unit look : String} {node : Record}

lemma exists_leaf_eq (d : Dialect) (r : Record) (styleClass : Option String) :
    ∃ rest, d.leaf r styleClass = d.opening r styleClass ++ rest := by
  rw [leaf]
  split_ifs
  · exact ⟨">" ++ (d.content r.content ++ ("</" ++ (d.tagName r ++ ">"))),
      by simp only [String.append_assoc]⟩
  · exact ⟨_, rfl⟩
  · exact ⟨_, rfl⟩
  · exact ⟨"></" ++ (d.tagName r ++ ">"), by simp only [String.append_assoc]⟩

lemma toList_margin_opening (margin rest : String) (styleClass : Option String) :
    (d.opening node styleClass).toList <:+: (margin ++ (d.opening node styleClass ++ rest)).toList :=
  ⟨margin.toList, rest.toList, by simp⟩

lemma infix_join {sep piece : String} {pieces : List String} (h : piece ∈ pieces) :
    piece.toList <:+: (join sep pieces).toList := by
  rw [join, String.toList_ofList]
  exact infix_joinWith (List.mem_map_of_mem h)

mutual

lemma exists_opening (t : Tree) (margin : String) (h : node ∈ t.records) :
    ∃ l ∈ d.lines unit classes margin t,
      (d.opening node (styleClassOf classes node)).toList <:+: l.toList := by
  match t with
  | .node r [] =>
    obtain rfl := List.mem_singleton.1 h
    obtain ⟨rest, hrest⟩ := exists_leaf_eq d node (styleClassOf classes node)
    exact ⟨_, List.mem_cons_self, hrest ▸ toList_margin_opening margin rest _⟩
  | .node r (c :: cs) =>
    rcases List.mem_cons.1 h with rfl | h
    · refine ⟨_, List.mem_cons_self, ?_⟩
      rw [String.append_assoc]
      exact toList_margin_opening margin ">" _
    · obtain ⟨l, hl, hopening⟩ := exists_openingOf (c :: cs) (margin ++ unit) h
      exact ⟨l, List.mem_append_left _ (List.mem_cons_of_mem _ hl), hopening⟩

lemma exists_openingOf (ts : List Tree) (margin : String) (h : node ∈ Tree.recordsOf ts) :
    ∃ l ∈ d.linesOf unit classes margin ts,
      (d.opening node (styleClassOf classes node)).toList <:+: l.toList := by
  match ts with
  | [] => cases h
  | t :: rest =>
    rcases List.mem_append.1 h with h | h
    · obtain ⟨l, hl, hopening⟩ := exists_opening t margin h
      exact ⟨l, List.mem_append_left _ hl, hopening⟩
    · obtain ⟨l, hl, hopening⟩ := exists_openingOf rest margin h
      exact ⟨l, List.mem_append_right _ hl, hopening⟩

end

lemma opening_isInfix_render {t : Tree} (h : node ∈ t.records) :
    (d.opening node (styleClassOf classes node)).toList <:+: (d.render unit classes t).toList := by
  obtain ⟨l, hl, hopening⟩ := exists_opening t "" h
  exact hopening.trans (infix_join hl)

lemma lookup_isInfix_opening (h : d.lookup? classes node = some look) :
    look.toList <:+: (d.opening node (styleClassOf classes node)).toList := by
  obtain ⟨write, hwrite, h⟩ := Option.bind_eq_some_iff.1 h
  obtain ⟨c, hc, rfl⟩ := Option.map_eq_some_iff.1 h
  have hattribute : write c (staticClasses node.props) ∈ d.attributes node (some c) := by
    simp only [attributes, classAttribute, hwrite]
    exact List.mem_cons_self
  have hspaced : (" " ++ write c (staticClasses node.props)).toList <:+:
      (concat ((d.attributes node (some c)).map fun a => " " ++ a)).toList :=
    infix_join (List.mem_map_of_mem hattribute)
  rw [opening, hc, String.toList_append]
  rw [String.toList_append] at hspaced
  exact (List.suffix_append _ _).isInfix.trans (hspaced.trans (List.suffix_append _ _).isInfix)

lemma lookup_isInfix_render (unit : String) {t : Tree} (hnode : node ∈ t.records)
    (h : d.lookup? classes node = some look) :
    look.toList <:+: (d.render unit classes t).toList :=
  (lookup_isInfix_opening h).trans (opening_isInfix_render hnode)

end ViewWriter.Markup.Dialect

/-! Class attributes. Where styles are no modules, the tag of a styled node opens with its classes, of
which its own is the first. The tags are opened in the order of the nodes. -/

namespace ViewWriter.Markup

open ViewWriter.Text ViewWriter.Schema

/-- A tag that opens with an attribute of this name, whose value stands in double quotes and, as it is
read, has the first word `c`. -/
def OpensWithWord (tag name c opening : String) : Prop :=
  ∃ written rest, opening = "<" ++ tag ++ " " ++ Dialect.quotedPair name written ++ rest ∧
    '"' ∉ written.toList ∧ (fields (decode written.toList)).head? = some c.toList

/-- Pieces that stand in a text one after the other. -/
inductive InOrder : List String → String → Prop
  | nil (s : String) : InOrder [] s
  | cons {piece : String} {rest : List String} {after : String} (before : String) :
      InOrder rest after → InOrder (piece :: rest) (before ++ piece ++ after)

namespace InOrder

variable {pieces : List String} {s : String}

lemma prepend (before : String) (h : InOrder pieces s) : InOrder pieces (before ++ s) := by
  cases h with
  | nil => exact .nil _
  | @cons piece rest after first h =>
    have happ : before ++ (first ++ piece ++ after) = (before ++ first) ++ piece ++ after := by
      simp only [String.append_assoc]
    rw [happ]
    exact .cons (before ++ first) h

end InOrder

namespace Dialect

variable {d : Dialect} {classes : Table String} {unit c : String} {node : Record}

lemma head_fields_join {c : String} (hne : c ≠ "") (h : ∀ a ∈ c.toList, isBlank a = false)
    (others : List String) : (fields (join " " (c :: others)).toList).head? = some c.toList := by
  have hword : c.toList ≠ [] := fun hnil => hne (String.toList_inj.1 hnil)
  rw [join, String.toList_ofList, List.map_cons, fields]
  cases others with
  | nil =>
    rw [joinWith_eq, List.map_nil, List.flatMap_nil, List.append_nil, runsOutside_word hword h]
    rfl
  | cons next rest =>
    have hspace : " ".toList = [' '] := by decide
    rw [joinWith_eq, List.map_cons, List.flatMap_cons, hspace, List.append_assoc, List.singleton_append,
      runsOutside_word_append hword h isBlank_space]
    rfl

lemma opening_classed (hmodule : d.moduleClass = none) (hne : c ≠ "")
    (h : ∀ a ∈ c.toList, isBlank a = false) (node : Record) :
    OpensWithWord (d.tagName node) (d.attributeName "class") c (d.opening node (some c)) := by
  let value := join " " (c :: staticClasses node.props)
  have hclass : d.classAttribute (some c) (staticClasses node.props) =
      some (d.staticAttribute "class" value) := by
    simp only [classAttribute, hmodule]
    rfl
  refine ⟨escapeQuoted value, concat ((d.propAttributes node.props ++
    (d.contentAttribute node.content).toList).map fun a => " " ++ a), ?_, ?_, ?_⟩
  · rw [← String.toList_inj]
    simp only [opening, attributes, hclass, Option.toList_some, List.cons_append, List.nil_append,
      List.map_cons, String.toList_append, toList_concat, List.flatMap_cons, staticAttribute,
      List.append_assoc]
  · rw [escapeQuoted, mapChars, String.toList_ofList, List.mem_flatMap]
    rintro ⟨a, -, ha⟩
    exact quote_notMem_quotedEntity a ha
  · rw [escapeQuoted, mapChars, String.toList_ofList, decode_flatMap escapes_quoted]
    exact head_fields_join hne h _

/-- Lines of which some, in their order, have the pieces in them. -/
def LinesHold (pieces lines : List String) : Prop :=
  List.SublistForall₂ (fun piece line => ∃ before after, line = before ++ piece ++ after) pieces lines

section Lines

variable {pieces lines more others : List String}

lemma LinesHold.append (h : LinesHold pieces lines) (hmore : LinesHold more others) :
    LinesHold (pieces ++ more) (lines ++ others) := by
  induction h with
  | @nil lines =>
    induction lines with
    | nil => exact hmore
    | cons line rest ih => exact .cons_right ih
  | cons hpiece _ ih => exact .cons hpiece ih
  | cons_right _ ih => exact .cons_right ih

lemma LinesHold.single (before piece after : String) :
    LinesHold [piece] [before ++ piece ++ after] :=
  .cons ⟨before, after, rfl⟩ .nil

lemma exists_join_cons (sep first : String) (rest : List String) :
    ∃ gap, join sep (first :: rest) = first ++ (gap ++ join sep rest) := by
  cases rest with
  | nil =>
    refine ⟨"", String.toList_inj.1 ?_⟩
    simp [join, joinWith]
  | cons next more =>
    refine ⟨sep, String.toList_inj.1 ?_⟩
    simp only [join, String.toList_append, String.toList_ofList, List.map_cons, joinWith_eq,
      List.flatMap_cons, List.append_assoc]

lemma inOrder_join (sep : String) (h : LinesHold pieces lines) : InOrder pieces (join sep lines) := by
  induction h with
  | nil => exact .nil _
  | @cons piece line rest lines hpiece _ ih =>
    obtain ⟨before, after, rfl⟩ := hpiece
    obtain ⟨gap, hgap⟩ := exists_join_cons sep (before ++ piece ++ after) lines
    rw [hgap, String.append_assoc]
    exact .cons before ((ih.prepend gap).prepend after)
  | @cons_right line pieces lines _ ih =>
    obtain ⟨gap, hgap⟩ := exists_join_cons sep line lines
    rw [hgap]
    exact (ih.prepend gap).prepend line

end Lines

def openings (d : Dialect) (classes : Table String) (records : List Record) : List String :=
  records.map fun r => d.opening r (styleClassOf classes r)

mutual

lemma linesHold_lines (t : Tree) (margin : String) :
    LinesHold (d.openings classes t.records) (d.lines unit classes margin t) := by
  match t with
  | .node r [] =>
    obtain ⟨rest, hrest⟩ := exists_leaf_eq d r (styleClassOf classes r)
    have hline := LinesHold.single margin (d.opening r (styleClassOf classes r)) rest
    rwa [String.append_assoc, ← hrest] at hline
  | .node r (c :: cs) =>
    have hfirst := LinesHold.single margin (d.opening r (styleClassOf classes r)) ">"
    have hinner := linesHold_linesOf (c :: cs) (margin ++ unit)
    have hall := (hfirst.append hinner).append (.nil : LinesHold [] [margin ++ "</" ++ d.tagName r ++ ">"])
    rwa [List.append_nil] at hall

lemma linesHold_linesOf (ts : List Tree) (margin : String) :
    LinesHold (d.openings classes (Tree.recordsOf ts)) (d.linesOf unit classes margin ts) := by
  match ts with
  | [] => exact .nil
  | t :: rest =>
    rw [Tree.recordsOf, openings, List.map_append]
    exact (linesHold_lines t margin).append (linesHold_linesOf rest margin)

end

lemma inOrder_render (t : Tree) :
    InOrder (d.openings classes t.records) (d.render unit classes t) :=
  inOrder_join "\n" (linesHold_lines t "")

end Dialect

end ViewWriter.Markup
