import Mathlib.Tactic.Lemma
import ViewWriter.Json.Printer
import ViewWriter.Number.Basic
import ViewWriter.Proofs.Text.Pieces

/-! Texts on one line. The data notation of a value is one, and so is a value in running text unless
it is a text with line breaks. -/

namespace ViewWriter

open ViewWriter.Text

/-! The characters that numbers are written with. -/

/-- Characters of digits, in whatever base, and the one that stands for a digit beyond the last. -/
def isFigure (c : Char) : Bool := isAsciiAlphanumeric c || c == '*'

/-- Figures, signs and the point. -/
def isNumeric (c : Char) : Bool := isFigure c || c == '-' || c == '+' || c == '.'

lemma isNumeric_of_figure {c : Char} (h : isFigure c = true) : isNumeric c = true := by
  simp [isNumeric, h]

def isShown (c : Char) : Bool := 32 ≤ c.toNat

lemma isShown_of_numeric {c : Char} (h : isNumeric c = true) : isShown c = true := by
  by_contra hc
  have hcodes : ∀ n < 32, isNumeric (Char.ofNat n) = false := by decide
  have hcontrol := hcodes c.toNat (by simpa [isShown] using hc)
  rw [Char.ofNat_toNat, h] at hcontrol
  cases hcontrol

lemma isFigure_digitChar (d : ℕ) : isFigure d.digitChar = true := by
  by_contra h
  have hne (c : Char) (hc : isFigure c = true) : d.digitChar ≠ c := fun heq => h (heq ▸ hc)
  refine Nat.digitChar_ne d.digitChar ?_ rfl
  simp only [Bool.and_eq_true, bne_iff_ne]
  and_intros <;> exact hne _ (by decide)

lemma isFigure_toDigits {b n : ℕ} (hb : 1 < b) : ∀ c ∈ Nat.toDigits b n, isFigure c = true := by
  induction n using Nat.strongRecOn with
  | _ n ih =>
    rw [Nat.toDigits_eq_if hb]
    split_ifs with hn
    · exact List.forall_mem_singleton.2 (isFigure_digitChar n)
    · rw [List.forall_mem_append]
      exact ⟨ih _ (Nat.div_lt_self (by omega) hb),
        List.forall_mem_singleton.2 (isFigure_digitChar (n % b))⟩

lemma isNumeric_toDigits {b n : ℕ} (hb : 1 < b) : ∀ c ∈ Nat.toDigits b n, isNumeric c = true :=
  fun c hc => isNumeric_of_figure (isFigure_toDigits hb c hc)

lemma isFigure_zeros (n : ℕ) : ∀ c ∈ List.replicate n '0', isFigure c = true := by
  intro c hc
  rw [(List.mem_replicate.1 hc).2]
  decide

lemma isNumeric_zeros (n : ℕ) : ∀ c ∈ List.replicate n '0', isNumeric c = true :=
  fun c hc => isNumeric_of_figure (isFigure_zeros n c hc)

lemma isNumeric_repr (n : ℕ) : ∀ c ∈ n.repr.toList, isNumeric c = true := by
  rw [Nat.repr_eq_ofList_toDigits, String.toList_ofList]
  exact isNumeric_toDigits (by decide)

lemma isNumeric_int (i : ℤ) : ∀ c ∈ (toString i).toList, isNumeric c = true := by
  cases i with
  | ofNat n => exact isNumeric_repr n
  | negSucc n =>
    have hwritten : (toString (Int.negSucc n)).toList = '-' :: (n + 1).repr.toList :=
      String.toList_append (s := "-") (t := (n + 1).repr)
    rw [hwritten, List.forall_mem_cons]
    exact ⟨by decide, isNumeric_repr _⟩

namespace NumberFormat

variable {f : NumberFormat}

lemma isNumeric_exponentText (f : NumberFormat) (e : ℤ) :
    ∀ c ∈ f.exponentText e, isNumeric c = true := by
  rw [exponentText, padLeft, List.forall_mem_cons, List.forall_mem_cons, List.forall_mem_append]
  refine ⟨by decide, ?_, isNumeric_zeros _, isNumeric_toDigits (by decide)⟩
  split_ifs <;> decide

lemma isNumeric_digitsText (f : NumberFormat) {digits : List Char}
    (h : ∀ c ∈ digits, isNumeric c = true) (e : ℤ) : ∀ c ∈ f.digitsText digits e, isNumeric c = true := by
  have hexponent := isNumeric_exponentText f e
  have hpoint : isNumeric '.' = true := by decide
  unfold digitsText
  split_ifs
  · split
    · exact h
    · rw [List.forall_mem_cons] at h ⊢
      exact ⟨h.1, hexponent⟩
    · rw [List.forall_mem_cons] at h
      rw [List.cons_append, List.forall_mem_cons, List.cons_append, List.forall_mem_cons,
        List.forall_mem_append]
      exact ⟨h.1, hpoint, h.2, hexponent⟩
  · split
    · rw [List.cons_append, List.forall_mem_cons, List.cons_append, List.forall_mem_cons,
        List.forall_mem_append]
      exact ⟨by decide, hpoint, isNumeric_zeros _, h⟩
    · rw [List.forall_mem_append, List.forall_mem_append, List.forall_mem_cons]
      refine ⟨⟨fun c hc => h c (List.mem_of_mem_take hc), isNumeric_zeros _⟩, hpoint, ?_⟩
      split_ifs
      · exact List.forall_mem_singleton.2 (by decide)
      · exact fun c hc => h c (List.mem_of_mem_drop hc)

lemma isNumeric_decimalText (f : NumberFormat) (d : Decimal) :
    ∀ c ∈ f.decimalText d, isNumeric c = true := by
  refine isNumeric_digitsText f (fun c hc => ?_) _
  have hkept := (List.dropWhile_suffix _).subset (List.mem_reverse.1 hc)
  exact isNumeric_toDigits (by decide) c (List.mem_reverse.1 hkept)

lemma isNumeric_write (hnan : ∀ c ∈ f.nan.toList, isNumeric c = true)
    (hinfinity : ∀ c ∈ f.infinity.toList, isNumeric c = true) (x : Binary64) :
    ∀ c ∈ (f.write x).toList, isNumeric c = true := by
  have hsign (s : Bool) : ∀ c ∈ (if s then "-" else "").toList, isNumeric c = true := by
    cases s <;> exact List.all_eq_true.1 (by decide)
  unfold write
  split
  · exact hnan
  · rw [String.toList_append, List.forall_mem_append]
    exact ⟨hsign _, hinfinity⟩
  · rw [String.toList_append, List.forall_mem_append]
    exact ⟨hsign _, List.all_eq_true.1 (by decide)⟩
  · rw [String.toList_append, List.forall_mem_append, String.toList_ofList]
    exact ⟨hsign _, isNumeric_decimalText f _⟩

end NumberFormat

lemma isNumeric_plain (x : Binary64) : ∀ c ∈ (NumberFormat.plain.write x).toList, isNumeric c = true :=
  NumberFormat.isNumeric_write (List.all_eq_true.1 (by decide)) (List.all_eq_true.1 (by decide)) x

lemma isNumeric_source (x : Binary64) :
    ∀ c ∈ (NumberFormat.source.write x).toList, isNumeric c = true :=
  NumberFormat.isNumeric_write (List.all_eq_true.1 (by decide)) (List.all_eq_true.1 (by decide)) x

/-! Texts. -/

/-- A text without line breaks. -/
def OneLine (s : String) : Prop := '\n' ∉ s.toList

instance (s : String) : Decidable (OneLine s) := inferInstanceAs (Decidable (_ ∉ _))

namespace OneLine

variable {s t sep : String} {pieces : List String}

lemma append (hs : OneLine s) (ht : OneLine t) : OneLine (s ++ t) := by
  rw [OneLine, String.toList_append]
  exact notMem_append hs ht

lemma join (hsep : OneLine sep) (h : ∀ piece ∈ pieces, OneLine piece) :
    OneLine (Text.join sep pieces) := by
  rw [OneLine, Text.join, String.toList_ofList]
  intro hmem
  rcases mem_joinWith hmem with hmem | ⟨piece, hpiece, hmem⟩
  · exact hsep hmem
  · obtain ⟨p, hp, rfl⟩ := List.mem_map.1 hpiece
    exact h p hp hmem

end OneLine

/-! Numbers. -/

lemma oneLine_of_numeric {s : String} (h : ∀ c ∈ s.toList, isNumeric c = true) : OneLine s :=
  fun hm => absurd (h _ hm) (by decide)

lemma oneLine_repr (n : ℕ) : OneLine n.repr := oneLine_of_numeric (isNumeric_repr n)

lemma oneLine_int (i : ℤ) : OneLine (toString i) := oneLine_of_numeric (isNumeric_int i)

lemma oneLine_number (n : Number) : OneLine (n.write .source) := by
  cases n with
  | int i => exact oneLine_int i
  | float x => exact oneLine_of_numeric (isNumeric_source x)

namespace Text

lemma isFigure_hexDigits (width n : ℕ) : ∀ c ∈ hexDigits width n, isFigure c = true :=
  List.forall_mem_append.2 ⟨isFigure_zeros _, isFigure_toDigits (by decide)⟩

lemma notMem_hexDigits (width n : ℕ) : '\n' ∉ hexDigits width n :=
  fun hm => absurd (isFigure_hexDigits width n _ hm) (by decide)

lemma notMem_quotedChar {mark : Char} (hmark : mark ≠ '\n') (c : Char) :
    '\n' ∉ quotedChar mark c := by
  have hhex (d : Char) (hd : d ≠ '\n') (width : ℕ) :
      '\n' ∉ '\\' :: d :: hexDigits width c.toNat := by
    simp [notMem_hexDigits, hd.symm]
  unfold quotedChar
  split_ifs with h hbreak
  · simp only [Bool.or_eq_true, beq_iff_eq] at h
    rcases h with rfl | rfl
    · simpa using hmark.symm
    · decide
  · decide
  · decide
  · decide
  · exact fun hm => hbreak (beq_iff_eq.2 (List.mem_singleton.1 hm).symm)
  · exact hhex 'x' (by decide) 2
  · exact hhex 'u' (by decide) 4
  · exact hhex 'U' (by decide) 8

lemma oneLine_quoted (s : String) : OneLine (quoted s) := by
  have hmark : quotedMark s.toList ≠ '\n' := by
    rw [quotedMark]
    split_ifs <;> decide
  rw [OneLine, quoted, String.toList_ofList]
  refine notMem_append (List.not_mem_cons_of_ne_of_not_mem hmark.symm fun h => ?_)
    (by simpa using hmark.symm)
  obtain ⟨c, -, hc⟩ := List.mem_flatMap.1 h
  exact notMem_quotedChar hmark c hc

end Text

namespace Json

lemma isShown_unitEscape (n : ℕ) : ∀ c ∈ unitEscape n, isShown c = true := by
  rw [unitEscape, List.forall_mem_cons, List.forall_mem_cons]
  exact ⟨by decide, by decide, fun c hc =>
    isShown_of_numeric (isNumeric_of_figure (isFigure_hexDigits 4 n c hc))⟩

lemma isShown_literalChar (set : Charset) (c : Char) :
    ∀ d ∈ literalChar set c, isShown d = true := by
  have hplain {cs : List Char} (h : cs.all isShown = true) : ∀ d ∈ cs, isShown d = true :=
    List.all_eq_true.1 h
  unfold literalChar
  split_ifs with _ _ _ _ _ _ _ hshown
  · exact hplain rfl
  · exact hplain rfl
  · exact hplain rfl
  · exact hplain rfl
  · exact hplain rfl
  · exact hplain rfl
  · exact hplain rfl
  · exact isShown_unitEscape _
  · rw [unitsEscape]
    split_ifs
    · exact isShown_unitEscape _
    · exact List.forall_mem_append.2 ⟨isShown_unitEscape _, isShown_unitEscape _⟩
  · rw [List.forall_mem_singleton, isShown]
    simpa using hshown

lemma isShown_literal (set : Charset) (s : String) : ∀ c ∈ (literal set s).toList, isShown c = true := by
  rw [literal, String.toList_ofList, List.forall_mem_append, List.forall_mem_cons]
  refine ⟨⟨rfl, fun d hd => ?_⟩, List.forall_mem_singleton.2 rfl⟩
  obtain ⟨c, -, hd⟩ := List.mem_flatMap.1 hd
  exact isShown_literalChar set c d hd

lemma oneLine_literal (set : Charset) (s : String) : OneLine (literal set s) := fun h =>
  absurd (isShown_literal set s '\n' h) (by decide)

lemma oneLine_bracketed {opening closing : String} {members : List String}
    (hopening : OneLine opening) (hclosing : OneLine closing) (h : ∀ m ∈ members, OneLine m) :
    OneLine (opening ++ join ", " members ++ closing) :=
  (hopening.append (.join (by decide) h)).append hclosing

mutual

lemma oneLine_quoted (v : Json) : OneLine v.quoted := by
  match v with
  | null => decide
  | bool b => cases b <;> decide
  | int i =>
    rw [quoted]
    exact oneLine_int i
  | float x =>
    rw [quoted]
    exact oneLine_of_numeric (isNumeric_plain x)
  | str s => exact Text.oneLine_quoted s
  | arr items => exact oneLine_bracketed (by decide) (by decide) (oneLine_quotedItems items)
  | obj fields => exact oneLine_bracketed (by decide) (by decide) (oneLine_quotedFields fields)

lemma oneLine_quotedItems (items : List Json) : ∀ m ∈ quotedItems items, OneLine m := by
  match items with
  | [] => exact fun _ h => by cases h
  | v :: rest => exact List.forall_mem_cons.2 ⟨oneLine_quoted v, oneLine_quotedItems rest⟩

lemma oneLine_quotedFields (fields : List (String × Json)) :
    ∀ m ∈ quotedFields fields, OneLine m := by
  match fields with
  | [] => exact fun _ h => by cases h
  | (k, v) :: rest =>
    have hfield : OneLine (Text.quoted k ++ ": " ++ quoted v) :=
      ((Text.oneLine_quoted k).append (by decide)).append (oneLine_quoted v)
    exact List.forall_mem_cons.2 ⟨hfield, oneLine_quotedFields rest⟩

end

mutual

lemma oneLine_compact (set : Charset) (v : Json) : OneLine (v.compact set) := by
  match v with
  | null => exact (by decide : OneLine "null")
  | bool b =>
    cases b with
    | true => exact (by decide : OneLine "true")
    | false => exact (by decide : OneLine "false")
  | int i =>
    rw [compact]
    exact oneLine_int i
  | float x =>
    rw [compact]
    exact oneLine_of_numeric (isNumeric_source x)
  | str s => exact oneLine_literal set s
  | arr items => exact oneLine_bracketed (by decide) (by decide) (oneLine_compactItems set items)
  | obj fields => exact oneLine_bracketed (by decide) (by decide) (oneLine_compactFields set fields)

lemma oneLine_compactItems (set : Charset) (items : List Json) :
    ∀ m ∈ compactItems set items, OneLine m := by
  match items with
  | [] => exact fun _ h => by cases h
  | v :: rest => exact List.forall_mem_cons.2 ⟨oneLine_compact set v, oneLine_compactItems set rest⟩

lemma oneLine_compactFields (set : Charset) (fields : List (String × Json)) :
    ∀ m ∈ compactFields set fields, OneLine m := by
  match fields with
  | [] => exact fun _ h => by cases h
  | (k, v) :: rest =>
    have hfield : OneLine (literal set k ++ ": " ++ compact set v) :=
      ((oneLine_literal set k).append (by decide)).append (oneLine_compact set v)
    exact List.forall_mem_cons.2 ⟨hfield, oneLine_compactFields set rest⟩

end

/-- A value that is no text with line breaks. -/
def Unbroken (v : Json) : Prop := ∀ s, v = .str s → OneLine s

instance : DecidablePred Unbroken := fun v =>
  match v with
  | .str s => decidable_of_iff (OneLine s) ⟨fun h _ ht => Json.str.inj ht ▸ h, fun h => h s rfl⟩
  | .null | .bool _ | .int _ | .float _ | .arr _ | .obj _ => isTrue fun _ ht => by cases ht

lemma Unbroken.display {v : Json} (h : v.Unbroken) : OneLine v.display := by
  cases v with
  | str s => exact h s rfl
  | _ => exact oneLine_quoted _

end Json

/-! Values on lines of their own. There are no control characters in them but the line breaks. -/

/-- A text of shown characters and line breaks. -/
def IsPrinted (s : String) : Prop := ∀ c ∈ s.toList, c = '\n' ∨ isShown c = true

instance (s : String) : Decidable (IsPrinted s) := List.decidableBAll _ _

lemma isPrinted_of_shown {s : String} (h : ∀ c ∈ s.toList, isShown c = true) : IsPrinted s :=
  fun c hc => .inr (h c hc)

lemma isPrinted_of_numeric {s : String} (h : ∀ c ∈ s.toList, isNumeric c = true) : IsPrinted s :=
  fun c hc => .inr (isShown_of_numeric (h c hc))

namespace IsPrinted

variable {s t sep : String} {pieces : List String}

lemma append (hs : IsPrinted s) (ht : IsPrinted t) : IsPrinted (s ++ t) := by
  rw [IsPrinted, String.toList_append]
  exact List.forall_mem_append.2 ⟨hs, ht⟩

lemma join (hsep : IsPrinted sep) (h : ∀ piece ∈ pieces, IsPrinted piece) :
    IsPrinted (Text.join sep pieces) := by
  rw [IsPrinted, Text.join, String.toList_ofList]
  intro c hc
  rcases mem_joinWith hc with hc | ⟨piece, hpiece, hc⟩
  · exact hsep c hc
  · obtain ⟨p, hp, rfl⟩ := List.mem_map.1 hpiece
    exact h p hp c hc

lemma carriageReturn_notMem (h : IsPrinted s) : '\r' ∉ s.toList := fun hmem =>
  absurd (h '\r' hmem) (by decide)

end IsPrinted

namespace Json

lemma isPrinted_block {opening closing margin inner : String} {members : List String}
    (hopening : IsPrinted opening) (hclosing : IsPrinted closing) (hmargin : IsPrinted margin)
    (hinner : IsPrinted inner) (h : ∀ m ∈ members, IsPrinted m) :
    IsPrinted (block opening closing margin inner members) := by
  have hmembers : ∀ m ∈ members.map (inner ++ ·), IsPrinted m := by
    intro m hm
    obtain ⟨member, hmember, rfl⟩ := List.mem_map.1 hm
    exact hinner.append (h member hmember)
  rw [block]
  split_ifs
  · exact hopening.append hclosing
  · have hlines : IsPrinted (Text.join ",\n" (members.map (inner ++ ·))) := .join (by decide) hmembers
    exact ((((hopening.append (by decide)).append hlines).append (by decide)).append hmargin).append
      hclosing

mutual

lemma isPrinted_indented {margin : String} (hmargin : IsPrinted margin) (v : Json) :
    IsPrinted (v.indented margin) := by
  have hinner : IsPrinted (margin ++ "  ") := hmargin.append (by decide)
  match v with
  | arr items =>
    rw [indented]
    exact isPrinted_block (by decide) (by decide) hmargin hinner (isPrinted_indentedItems hinner items)
  | obj fields =>
    rw [indented]
    exact isPrinted_block (by decide) (by decide) hmargin hinner (isPrinted_indentedFields hinner fields)
  | null => exact (by decide : IsPrinted "null")
  | bool true => exact (by decide : IsPrinted "true")
  | bool false => exact (by decide : IsPrinted "false")
  | int i => exact isPrinted_of_numeric (isNumeric_int i)
  | float x => exact isPrinted_of_numeric (isNumeric_source x)
  | str s => exact isPrinted_of_shown (isShown_literal .unicode s)

lemma isPrinted_indentedItems {margin : String} (hmargin : IsPrinted margin) (items : List Json) :
    ∀ m ∈ indentedItems margin items, IsPrinted m := by
  match items with
  | [] => exact fun _ h => by cases h
  | v :: rest =>
    rw [indentedItems]
    exact List.forall_mem_cons.2 ⟨isPrinted_indented hmargin v, isPrinted_indentedItems hmargin rest⟩

lemma isPrinted_indentedFields {margin : String} (hmargin : IsPrinted margin)
    (fields : List (String × Json)) : ∀ m ∈ indentedFields margin fields, IsPrinted m := by
  match fields with
  | [] => exact fun _ h => by cases h
  | (k, v) :: rest =>
    have hkey : IsPrinted (literal .unicode k) := isPrinted_of_shown (isShown_literal .unicode k)
    rw [indentedFields]
    exact List.forall_mem_cons.2 ⟨(hkey.append (by decide)).append (isPrinted_indented hmargin v),
      isPrinted_indentedFields hmargin rest⟩

end

end Json

end ViewWriter
