import ViewWriter.Proofs.Script.Identifier
import ViewWriter.Proofs.Template.Compiling
import ViewWriter.Proofs.Template.Totality
import ViewWriter.Proofs.Text.Doubled
import ViewWriter.Proofs.Text.Replacing
import ViewWriter.Proofs.Text.Spacing

/-! Quoted texts in templates. A text that was put between double quotes is one operand of a tag, whatever
characters it has, and it stands for that text. -/

namespace ViewWriter.Template

open ViewWriter.Text ViewWriter.Template.Source

/-- Backslashes and double quotes get a backslash. -/
def quoteTable : List (Char × List Char) := [('\\', ['\\', '\\']), ('"', ['\\', '"'])]

/-- The inside of a quoted text. -/
def quotedChars (cs : List Char) : List Char := cs.flatMap (inPlaceOf quoteTable)

def quotedOperand (cs : List Char) : List Char := '"' :: quotedChars cs ++ ['"']

section Quoting

variable {c : Char} {cs rest : List Char}

lemma quotedChars_cons (c : Char) (cs : List Char) :
    (c = '\\' ∨ c = '"') ∧ quotedChars (c :: cs) = '\\' :: c :: quotedChars cs ∨
      (c ≠ '\\' ∧ c ≠ '"') ∧ quotedChars (c :: cs) = c :: quotedChars cs := by
  by_cases hc : c = '\\' ∨ c = '"'
  · refine .inl ⟨hc, ?_⟩
    rcases hc with rfl | rfl <;> rfl
  · refine .inr ⟨not_or.1 hc, ?_⟩
    have hnot : c ∉ quoteTable.map Prod.fst := by simpa [quoteTable] using hc
    rw [quotedChars, List.flatMap_cons, inPlaceOf_of_notMem hnot]
    rfl

lemma quote_str (s : String) : Helper.quote [.str s, .str "\""] =
    .ok (.str (String.ofList (quotedOperand s.toList))) := by
  have horder : quoteTable.Pairwise fun first later => later.1 ∉ first.2 := by decide
  have hturn : replaceAll ['"'] ['\\', '"'] (replaceAll ['\\'] ['\\', '\\'] s.toList) =
      quotedChars s.toList := replaceInTurn_table horder s.toList
  have hmark : "\"".toList = ['"'] := rfl
  have htext : (Helper.text (.str s)).toList = s.toList := rfl
  refine congrArg (Except.ok ∘ Json.str) (String.toList_inj.1 ?_)
  rw [htext, hmark, hturn]
  simp [quotedOperand]

lemma afterQuoted?_quotedChars (cs rest : List Char) :
    afterQuoted? (quotedChars cs ++ '"' :: rest) = some (quotedChars cs ++ ['"'], rest) := by
  induction cs with
  | nil => rfl
  | cons c cs ih =>
    rcases quotedChars_cons c cs with ⟨hc, heq⟩ | ⟨hc, heq⟩
    · have hbreak : (c == '\n') = false := by rcases hc with rfl | rfl <;> rfl
      rw [heq, List.cons_append, List.cons_append, afterQuoted?, hbreak, if_neg Bool.false_ne_true, ih]
      rfl
    · rw [heq, List.cons_append, afterQuoted?.eq_4, ih]
      · simp [hc.1]
      · rintro rfl
        exact hc.2 rfl
      · rintro d more rfl -
        exact hc.1 rfl

lemma unescaped_quotedChars (cs : List Char) : unescaped (quotedChars cs) = cs := by
  induction cs with
  | nil => rfl
  | cons c cs ih =>
    rcases quotedChars_cons c cs with ⟨hc, heq⟩ | ⟨hc, heq⟩
    · have hbreak : (c == '\n') = false := by rcases hc with rfl | rfl <;> rfl
      rw [heq, unescaped, hbreak, if_neg Bool.false_ne_true, ih]
    · rw [heq, unescaped.eq_3, ih]
      rintro d more rfl -
      exact hc.1 rfl

lemma operand?_quoted (p : Char → Bool) (cs rest : List Char) :
    operand? p (quotedOperand cs ++ rest) = some (quotedOperand cs, rest) := by
  have hafter := afterQuoted?_quotedChars cs rest
  rw [quotedOperand, List.cons_append, List.cons_append, List.append_assoc, List.singleton_append,
    operand?, hafter]
  rfl

lemma trim_quoted (cs : List Char) : trim isBlank (quotedOperand cs) = quotedOperand cs :=
  trim_of_ends (by decide) (d := '"') (by decide) (by rfl : _ = ('"' :: quotedChars cs) ++ ['"'])

lemma resolveOperand_quoted (cs : List Char) (context : Json) :
    resolveOperand (String.ofList (quotedOperand cs)) context = .ok (.str (String.ofList cs)) := by
  have hinside : quotedInside? (quotedOperand cs) = some (quotedChars cs) := by
    simp [quotedOperand, quotedInside?]
  simp only [resolveOperand, trimmed, String.toList_ofList, trim_quoted, hinside,
    unescaped_quotedChars]

end Quoting

section Tags

variable {cs name rest after : List Char} {c : Char}

lemma isBlank_of_part (h : isIdentifierPart c = true) : isBlank c = false :=
  Bool.eq_false_iff.2 fun hblank => by simp [Script.isIdentifierPart_of_blank hblank] at h

lemma untilClose_append (h : ¬ Doubles '\x7d' (cs ++ ['\x7d'])) :
    untilClose (cs ++ '\x7d' :: '\x7d' :: after) = some (cs, after) := by
  induction cs with
  | nil => rfl
  | cons c cs ih =>
    rw [List.cons_append, doubles_cons_iff, not_or] at h
    rw [List.cons_append, untilClose.eq_2, ih h.2]
    · rfl
    · rintro more rfl hmore
      refine h.1 ⟨rfl, ?_⟩
      cases cs with
      | nil => rfl
      | cons d cs => exact congrArg List.head? hmore

lemma arguments?_nil (hb : cs.dropWhile isBlank = []) : arguments? cs = some [] := by
  rw [← argumentsWithin_eq (Nat.lt_succ_self _), argumentsWithin, hb]

lemma arguments?_cons {arg : List Char} (hb : cs.dropWhile isBlank = c :: after)
    (ho : operand? isArgumentChar (c :: after) = some (arg, rest)) :
    arguments? cs = (arguments? rest).map (arg :: ·) := by
  rw [arguments?]
  split
  · simp_all
  · rename_i d more hcons
    obtain ⟨rfl, rfl⟩ := List.cons.inj (hb.symm.trans hcons)
    split
    · simp_all
    · simp_all

lemma identifierPart_of_isPath (h : isPath cs = true) (hc : c ∈ cs) :
    c = '.' ∨ isIdentifierPart c = true := by
  rw [← joinWith_splitOn '.' cs] at hc
  rcases mem_joinWith hc with hc | ⟨segment, hsegment, hc⟩
  · exact .inl (List.mem_singleton.1 hc)
  · rw [isPath] at h
    split at h
    · cases h
    · rename_i first others hsplit
      rw [Bool.and_eq_true, List.all_eq_true] at h
      rw [hsplit, List.mem_cons] at hsegment
      refine .inr ?_
      rcases hsegment with rfl | hsegment
      · exact (Script.parts_of_isIdentifier h.1).2 c hc
      · have hothers := h.2 segment hsegment
        rw [Bool.and_eq_true, List.all_eq_true] at hothers
        exact hothers.2 c hc

lemma trim_before_quoted (hc : isBlank c = false) (cs text : List Char) :
    trim isBlank (c :: (cs ++ quotedOperand text)) = c :: (cs ++ quotedOperand text) := by
  have hends : c :: (cs ++ quotedOperand text) = (c :: (cs ++ '"' :: quotedChars text)) ++ ['"'] := by
    simp [quotedOperand]
  exact trim_of_ends hc (by decide) hends

lemma isArgumentChar_of_part (h : isIdentifierPart c = true) : isArgumentChar c = true := by
  have hquote : c ≠ '"' := by
    rintro rfl
    exact absurd h (by decide)
  simp [isArgumentChar, isBlank_of_part h, hquote]

lemma arguments?_quoted (hname : isIdentifier name = true) (text : List Char) :
    arguments? (name ++ ' ' :: quotedOperand text) = some [name, quotedOperand text] := by
  have hparts := (Script.parts_of_isIdentifier hname).2
  cases name with
  | nil => cases hname
  | cons c name =>
    obtain ⟨hc, hmore⟩ := List.forall_mem_cons.1 hparts
    have hargs : ∀ d ∈ name, isArgumentChar d := fun d hd => isArgumentChar_of_part (hmore d hd)
    have hname : operand? isArgumentChar (c :: (name ++ ' ' :: quotedOperand text)) =
        some (c :: name, ' ' :: quotedOperand text) := by
      rw [operand?.eq_3, if_pos (isArgumentChar_of_part hc), takeWhile_stop hargs (by decide),
        dropWhile_stop hargs (by decide)]
      rintro rfl
      exact absurd hc (by decide)
    have hblank : (c :: (name ++ ' ' :: quotedOperand text)).dropWhile isBlank =
        c :: (name ++ ' ' :: quotedOperand text) :=
      List.dropWhile_cons_of_neg (by simp [isBlank_of_part hc])
    have hquoted := operand?_quoted isArgumentChar text []
    rw [List.append_nil] at hquoted
    rw [List.cons_append, arguments?_cons hblank hname, arguments?_cons rfl hquoted,
      arguments?_nil rfl]
    rfl

lemma ofBody?_call (hname : isIdentifier name = true) (text : List Char) :
    Tag.ofBody? (name ++ ' ' :: quotedOperand text) =
      some (.helper (String.ofList name) [String.ofList (quotedOperand text)]) := by
  have hargs := arguments?_quoted hname text
  have hpath : isPath (name ++ ' ' :: quotedOperand text) = false := Bool.eq_false_iff.2 fun h => by
    have hblank : ' ' ∈ name ++ ' ' :: quotedOperand text := by simp
    exact absurd (identifierPart_of_isPath h hblank) (by decide)
  cases name with
  | nil => cases hname
  | cons c name =>
    have hc := (Script.parts_of_isIdentifier hname).2 c List.mem_cons_self
    have htrim := trim_before_quoted (isBlank_of_part hc) (name ++ [' ']) text
    have hhash : c ≠ '#' := by
      rintro rfl
      exact absurd hc (by decide)
    have hslash : c ≠ '/' := by
      rintro rfl
      exact absurd hc (by decide)
    rw [List.append_assoc, List.singleton_append] at htrim
    rw [List.cons_append] at hargs hpath
    rw [List.cons_append, Tag.ofBody?, htrim]
    simp [afterKeyword?, stripPrefix?, hhash, hslash, hhash.symm, hpath, hargs, hname]

/-- The condition that `x` is the quoted text. -/
def isQuoted (text : List Char) : String := "x == " ++ String.ofList (quotedOperand text)

lemma toList_isQuoted (text : List Char) :
    (isQuoted text).toList = 'x' :: ' ' :: '=' :: '=' :: ' ' :: quotedOperand text := by
  rw [isQuoted, String.toList_append]
  exact congrArg ("x == ".toList ++ ·) String.toList_ofList

lemma toList_ifQuoted (text : List Char) :
    ("#if " ++ isQuoted text).toList = "#if x ==".toList ++ ' ' :: quotedOperand text := by
  rw [String.toList_append, toList_isQuoted]
  rfl

lemma ofBody?_ifQuoted (text : List Char) :
    Tag.ofBody? ("#if " ++ isQuoted text).toList = some (.ifOpen (isQuoted text)) := by
  have htrim := trim_before_quoted (c := '#') (by decide) "if x == ".toList text
  have hkeyword : afterKeyword? "#if" ('#' :: ("if x == ".toList ++ quotedOperand text)) =
      some (isQuoted text).toList := by
    rw [toList_isQuoted]
    rfl
  have hbody : ("#if " ++ isQuoted text).toList = '#' :: ("if x == ".toList ++ quotedOperand text) :=
    toList_ifQuoted text
  rw [hbody, Tag.ofBody?, htrim]
  simp only [hkeyword, String.ofList_toList]
  rfl

lemma parse_isQuoted (text : List Char) :
    Condition.parse (isQuoted text) = .equal "x" (String.ofList (quotedOperand text)) := by
  have hquoted := operand?_quoted Condition.isComparedChar text []
  rw [List.append_nil] at hquoted
  have hleft : operand? Condition.isComparedChar ((isQuoted text).toList.dropWhile isBlank) =
      some (['x'], ' ' :: '=' :: '=' :: ' ' :: quotedOperand text) := by
    rw [toList_isQuoted]
    rfl
  have hright : operand? Condition.isComparedChar ((' ' :: quotedOperand text).dropWhile isBlank) =
      some (quotedOperand text, []) := hquoted
  have hcompare : Condition.comparison? (isQuoted text).toList =
      some (.equal "x" (String.ofList (quotedOperand text))) := by
    rw [Condition.comparison?, hleft]
    change ((operand? Condition.isComparedChar ((' ' :: quotedOperand text).dropWhile isBlank)).bind
      fun right => if right.2.all isBlank then some (Condition.equal "x" (String.ofList right.1))
        else none) = _
    rw [hright]
    rfl
  rw [Condition.parse, hcompare]

lemma toList_mark (body : String) :
    (mark body).toList = '\x7b' :: '\x7b' :: (body.toList ++ ['\x7d', '\x7d']) := by
  simp [mark, braces]

lemma marker_toList (body : String) : marker body.toList = mark body :=
  String.toList_inj.1 (by rw [toList_mark, marker, String.toList_ofList]; rfl)

lemma scan_mark {body : String} {t : Tag} (hclose : ¬ Doubles '\x7d' (body.toList ++ ['\x7d']))
    (ht : Tag.ofBody? body.toList = some t) (after : List Char) :
    scan [] ((mark body).toList ++ after) = .tag t (mark body) :: scan [] after := by
  have hsource : (mark body).toList ++ after =
      '\x7b' :: '\x7b' :: (body.toList ++ '\x7d' :: '\x7d' :: after) := by simp [toList_mark]
  rw [hsource, scan_marker (untilClose_append hclose), scan_end, Token.ofBody, ht, marker_toList]
  rfl

lemma tokenize_mark {body : String} {t : Tag} (hclose : ¬ Doubles '\x7d' (body.toList ++ ['\x7d']))
    (ht : Tag.ofBody? body.toList = some t) : tokenize (mark body) = [.tag t (mark body)] := by
  have hscan := scan_mark hclose ht []
  rw [List.append_nil, scan_end] at hscan
  rw [tokenize, hscan]
  rfl

lemma tokenize_ifElse {condition : String}
    (hclose : ¬ Doubles '\x7d' (("#if " ++ condition).toList ++ ['\x7d']))
    (ht : Tag.ofBody? ("#if " ++ condition).toList = some (.ifOpen condition)) :
    tokenize (openIf condition ++ "A" ++ otherwise ++ "B" ++ closeIf) =
      [.tag (.ifOpen condition) (openIf condition), .text "A" "A", .tag .ifElse otherwise,
        .text "B" "B", .tag .ifClose closeIf] := by
  have hrest : scan [] ("A" ++ otherwise ++ "B" ++ closeIf).toList =
      [.text "A" "A", .tag .ifElse otherwise, .text "B" "B", .tag .ifClose closeIf] := by
    rw [← scanWithin_eq (Nat.lt_succ_self _)]
    rfl
  have hsource : (openIf condition ++ "A" ++ otherwise ++ "B" ++ closeIf).toList =
      (mark ("#if " ++ condition)).toList ++ ("A" ++ otherwise ++ "B" ++ closeIf).toList := by
    simp [openIf]
  rw [tokenize, hsource, scan_mark hclose ht, hrest]
  rfl

/-- What stands around a quoted text makes no pair of closing braces with it. -/
lemma not_doubles_quoted {text : List Char} (hcs : '\x7d' ∉ cs)
    (htext : ¬ Doubles '\x7d' (quotedOperand text)) :
    ¬ Doubles '\x7d' ((cs ++ ' ' :: quotedOperand text) ++ ['\x7d']) := by
  have hlast : (cs ++ ' ' :: quotedOperand text).getLast? = some '"' := by
    rw [quotedOperand, ← List.cons_append, ← List.append_assoc, List.getLast?_concat]
  rw [doubles_append_iff, doubles_append_stop (by decide), hlast]
  simp [not_doubles_of_notMem hcs, htext, doubles_cons_iff, not_doubles_nil]

end Tags

section Rendering

variable {e : Engine} {name source raw : String} {context : Json}

lemma renderString_callQuoted {f : Helper} {text : List Char}
    (hname : (e.store.helpersFor e.generator).get? name = some f)
    (h : tokenize source = [.tag (.helper name [String.ofList (quotedOperand text)]) raw])
    (context : Json) :
    e.renderString source context = .ok (callText f [.str (String.ofList text)]) := by
  have hlookup : (e.store.helpersFor e.generator).lookup name = some f := hname
  have hnodes : compile source = [.call name [String.ofList (quotedOperand text)] raw] := by
    rw [compile, h]
    exact parse_of_spells (.call _ _ _ .nil)
  rw [Engine.renderString, renderSource_eq, hnodes]
  simp only [renderAll, Node.render, hlookup, List.mapM_cons, List.mapM_nil, resolveOperand_quoted]
  exact congrArg Except.ok String.append_empty

lemma resolveOperand_x {context : Table Json} {v : Json} (h : context.get? "x" = some v) :
    resolveOperand "x" (.obj context) = .ok v := by
  have hx : IsLookup "x" := ⟨by rfl, by rfl, by rfl⟩
  exact (resolveOperand_lookup hx).trans (resolvePath_of_leads (.member h (.here v)))

lemma eval_isQuoted {context : Table Json} {v : String} (h : context.get? "x" = some (.str v))
    (text : List Char) : (Condition.parse (isQuoted text)).eval ((Json.obj context).orElse (.obj [])) =
      .ok (v == String.ofList text) := by
  have heq : (Json.str v).eq (.str (String.ofList text)) = (v == String.ofList text) := by
    rw [Json.eq]
  rw [parse_isQuoted, orElse_obj, Condition.eval, resolveOperand_x h, resolveOperand_quoted, ← heq]
  rfl

lemma renderString_ifElse {condition : String} {b : Bool}
    (h : tokenize source = [.tag (.ifOpen condition) (openIf condition), .text "A" "A",
      .tag .ifElse otherwise, .text "B" "B", .tag .ifClose closeIf])
    (hb : (Condition.parse condition).eval (context.orElse (.obj [])) = .ok b) :
    e.renderString source context = .ok (if b then "A" else "B") := by
  have hnodes : compile source =
      [.conditional (.parse condition) [.text "A"] [.text "B"]] := by
    rw [compile, h]
    exact parse_of_spells
      (.conditional _ _ _ _ (.text _ _ .nil) (.text _ _ .nil) .nil)
  rw [Engine.renderString, renderSource_eq, hnodes]
  simp only [renderAll, Node.render, hb]
  cases b <;> rfl

end Rendering

/-- A text that `quote` has put between double quotes is one operand of a tag, and stands for the
text, where it has no pair of closing braces. -/
theorem quoted_operand_denotes (s : String) :
    ∃ q, Helper.quote [.str s, .str "\""] = .ok (.str q) ∧
      (¬ Doubles '\x7d' q.toList → ∀ e : Engine,
        (∀ name f context, isIdentifier name.toList = true →
          (e.store.helpersFor e.generator).get? name = some f →
          tokenize (mark (name ++ " " ++ q)) =
            [.tag (.helper name [q]) (mark (name ++ " " ++ q))] ∧
          e.renderString (mark (name ++ " " ++ q)) context = .ok (callText f [.str s])) ∧
        ∀ context v, Table.get? context "x" = some (.str v) →
          e.renderString (openIf ("x == " ++ q) ++ "A" ++ otherwise ++ "B" ++ closeIf)
            (.obj context) = .ok (if v = s then "A" else "B")) := by
  refine ⟨_, quote_str s, fun hclose e => ?_⟩
  rw [String.toList_ofList] at hclose
  refine ⟨fun name f context hname hf => ?_, fun context v hx => ?_⟩
  · have hbody : (name ++ " " ++ String.ofList (quotedOperand s.toList)).toList =
        name.toList ++ ' ' :: quotedOperand s.toList := by simp
    have hbrace : '\x7d' ∉ name.toList := Script.notMem_of_isIdentifier hname (by decide)
    have htag := ofBody?_call hname s.toList
    have hopen := not_doubles_quoted hbrace hclose
    rw [← hbody] at htag hopen
    rw [String.ofList_toList] at htag
    have htokens := tokenize_mark hopen htag
    have hcall := renderString_callQuoted hf htokens context
    rw [String.ofList_toList] at hcall
    exact ⟨htokens, hcall⟩
  · have hopen := not_doubles_quoted (by decide : '\x7d' ∉ "#if x ==".toList) hclose
    rw [← toList_ifQuoted] at hopen
    have htokens := tokenize_ifElse hopen (ofBody?_ifQuoted s.toList)
    have heval := eval_isQuoted hx s.toList
    rw [String.ofList_toList] at heval
    have htext := renderString_ifElse (e := e) htokens heval
    simpa [isQuoted] using htext

lemma quoted_operand_denotes_comparison :
    let e : Engine := ⟨.withShared, none⟩
    let s := "a\\ == \"b\""
    let q := "\"a\\\\ == \\\"b\\\"\""
    ¬ Doubles '\x7d' q.toList ∧
      e.renderString (mark ("upper" ++ " " ++ q)) .null =
        .ok (callText (Helper.onText upper) [.str s]) ∧
      e.renderString (openIf ("x == " ++ q) ++ "A" ++ otherwise ++ "B" ++ closeIf)
        (.obj [("x", .str s)]) = .ok "A" := by
  intro e s q
  have hclose : ¬ Doubles '\x7d' q.toList := by decide
  obtain ⟨written, hwritten, h⟩ := quoted_operand_denotes s
  have hquoted : String.ofList (quotedOperand s.toList) = q := by decide +kernel
  obtain rfl : q = written := by
    rw [quote_str, hquoted] at hwritten
    exact Json.str.inj (Except.ok.inj hwritten)
  obtain ⟨hcall, hcondition⟩ := h hclose e
  refine ⟨hclose, (hcall "upper" (Helper.onText upper) .null (by decide) rfl).2, ?_⟩
  exact hcondition [("x", .str s)] s rfl

end ViewWriter.Template
