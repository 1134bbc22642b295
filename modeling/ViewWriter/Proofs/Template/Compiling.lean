import Mathlib.Tactic.Common
import ViewWriter.Proofs.Template.Reading
import ViewWriter.Proofs.Template.Scanning
import ViewWriter.Template.Source

/-! Compiling by structural recursion on a number of steps. With enough steps it gives the nodes of a
source, so that the nodes of a given source can be computed. -/

namespace ViewWriter.Template

open ViewWriter.Text

def argumentsWithin : ℕ → List Char → Option (List (List Char))
  | 0, _ => none
  | n + 1, cs =>
    match cs.dropWhile isBlank with
    | [] => some []
    | c :: r =>
      match operand? isArgumentChar (c :: r) with
      | none => none
      | some (arg, rest) => (argumentsWithin n rest).map (arg :: ·)

lemma argumentsWithin_eq {n : ℕ} {cs : List Char} (h : cs.length < n) :
    argumentsWithin n cs = arguments? cs := by
  obtain ⟨n, rfl⟩ : ∃ m, n = m + 1 := ⟨n - 1, by omega⟩
  fun_induction arguments? cs generalizing n with
  | case1 cs hb => rw [argumentsWithin, hb]
  | case2 cs c r hb ho => simp only [argumentsWithin, hb, ho]
  | case3 cs c r hb arg rest ho ih =>
    have hlength := (List.dropWhile_suffix (l := cs) isBlank).length_le
    have hrest := operand?_length ho
    rw [hb] at hlength
    obtain ⟨m, rfl⟩ : ∃ m, n = m + 1 := ⟨n - 1, by omega⟩
    simp only [argumentsWithin, hb, ho]
    rw [← ih m (by omega)]
    rfl

/-- The tag of a body whose arguments are read by `args?`. -/
def tagBy (args? : List Char → Option (List (List Char))) (body : List Char) : Option Tag :=
  let cs := trim isBlank body
  if cs == "#else".toList then some .ifElse
  else if cs == "/if".toList then some .ifClose
  else if cs == "/each".toList then some .eachClose
  else match afterKeyword? "#if" cs with
    | some condition => some (.ifOpen (String.ofList condition))
    | none => match (afterKeyword? "#each" cs).filter fun source => !source.any isBlank with
      | some source => some (.eachOpen (String.ofList source))
      | none =>
        if isPath cs then some (.path (String.ofList cs))
        else match args? cs with
          | some (name :: arg :: args) =>
            if isIdentifier name then
              some (.helper (String.ofList name) ((arg :: args).map String.ofList))
            else none
          | _ => none

def tokenWithin (body : List Char) : Token :=
  match tagBy (argumentsWithin (body.length + 1)) body with
  | some t => .tag t (marker body)
  | none => .text (marker body) (marker body)

lemma tokenWithin_eq (body : List Char) : tokenWithin body = Token.ofBody body := by
  have hlength : (trim isBlank body).length < body.length + 1 :=
    Nat.lt_succ_of_le (trim_isInfix body).length_le
  have htag : tagBy (argumentsWithin (body.length + 1)) body = Tag.ofBody? body := by
    rw [tagBy, argumentsWithin_eq hlength]
    rfl
  rw [tokenWithin, htag]
  rfl

def scanWithin : ℕ → List Char → List Char → List Token
  | 0, _, _ => []
  | n + 1, passed, cs =>
    let pending := if passed.isEmpty then [] else [Token.ofText passed.reverse]
    match cs with
    | [] => pending
    | '\x7b' :: '\x7b' :: rest =>
      match untilClose rest with
      | some (body, after) => pending ++ tokenWithin body :: scanWithin n [] after
      | none => scanWithin n ('\x7b' :: passed) ('\x7b' :: rest)
    | c :: rest => scanWithin n (c :: passed) rest

lemma scanWithin_eq {n : ℕ} {passed cs : List Char} (h : cs.length < n) :
    scanWithin n passed cs = scan passed cs := by
  induction n generalizing passed cs with
  | zero => cases h
  | succ n ih =>
    rw [scanWithin.eq_def]
    simp only
    split
    · exact (scan_end passed).symm
    · rename_i rest
      simp only [List.length_cons] at h
      split
      · rename_i body after hclose
        have hafter := untilClose_length hclose
        rw [scan_marker hclose, scan_end, tokenWithin_eq, ih (by omega)]
      · rename_i hclose
        rw [scan_open hclose, ih (by simp only [List.length_cons]; omega)]
    · rename_i c rest hopen
      simp only [List.length_cons] at h
      rw [scan_cons hopen, ih (by omega)]

/-- The nodes of well-nested tokens up to a tag that closes or parts a block. -/
def nested : ℕ → List Token → Option (List Node × List Token)
  | 0, _ => none
  | _ + 1, [] => some ([], [])
  | n + 1, t :: rest =>
    let after (first : Node) (ts : List Token) : Option (List Node × List Token) :=
      (nested n ts).map fun s => (first :: s.1, s.2)
    match t with
    | .text value _ => after (.text value) rest
    | .tag (.path path) _ => after (.interpolation path) rest
    | .tag (.helper name args) raw => after (.call name args raw) rest
    | .tag (.ifOpen condition) _ =>
      (nested n rest).bind fun s =>
        match s.2 with
        | .tag .ifClose _ :: ts => after (.conditional (.parse condition) s.1 []) ts
        | .tag .ifElse _ :: ts =>
          (nested n ts).bind fun e =>
            match e.2 with
            | .tag .ifClose _ :: ts => after (.conditional (.parse condition) s.1 e.1) ts
            | _ => none
        | _ => none
    | .tag (.eachOpen source) _ =>
      (nested n rest).bind fun s =>
        match s.2 with
        | .tag .eachClose _ :: ts => after (.loop source s.1) ts
        | _ => none
    | t => some ([], t :: rest)

section Nested

variable {n : ℕ} {ts rest : List Token} {F : List Node} {first : Node}

/-- What is read has been spelled. -/
def Faithful (n : ℕ) : Prop :=
  ∀ {ts rest F}, nested n ts = some (F, rest) → ∃ read, ts = read ++ rest ∧ Spells false F read

lemma Faithful.after (hn : Faithful n)
    (h : ((nested n ts).map fun s => (first :: s.1, s.2)) = some (F, rest)) :
    ∃ G read, F = first :: G ∧ ts = read ++ rest ∧ Spells false G read := by
  obtain ⟨⟨G, us⟩, hs, heq⟩ := Option.map_eq_some_iff.1 h
  obtain ⟨rfl, rfl⟩ := Prod.mk.inj heq
  obtain ⟨read, hts, hG⟩ := hn hs
  exact ⟨G, read, rfl, hts, hG⟩

lemma faithful_nested (n : ℕ) : Faithful n := by
  induction n with
  | zero => intro ts rest F h; cases h
  | succ n ih =>
    intro ts rest F h
    rw [nested.eq_def] at h
    split at h
    · cases h
    · cases h
      exact ⟨[], rfl, .nil⟩
    rename_i n' t ts heq
    obtain rfl : n = n' := Nat.succ.inj heq
    split at h
    · rename_i value raw
      obtain ⟨G, read, rfl, rfl, hG⟩ := ih.after h
      exact ⟨_ :: read, rfl, .text value raw hG⟩
    · rename_i path raw
      obtain ⟨G, read, rfl, rfl, hG⟩ := ih.after h
      exact ⟨_ :: read, rfl, .interpolation path raw hG⟩
    · rename_i name args raw
      obtain ⟨G, read, rfl, rfl, hG⟩ := ih.after h
      exact ⟨_ :: read, rfl, .call name args raw hG⟩
    · rename_i condition raw
      obtain ⟨⟨thenF, us⟩, hthen, hmore⟩ := Option.bind_eq_some_iff.1 h
      clear h
      obtain ⟨thenTs, rfl, hthenF⟩ := ih hthen
      split at hmore
      · rename_i closeRaw us heq
        cases heq
        obtain ⟨G, read, rfl, rfl, hG⟩ := ih.after hmore
        exact ⟨_, by simp, .conditionalOnly condition raw closeRaw hthenF hG⟩
      · rename_i elseRaw us heq
        cases heq
        obtain ⟨⟨elseF, vs⟩, helse, hlast⟩ := Option.bind_eq_some_iff.1 hmore
        clear hmore
        obtain ⟨elseTs, rfl, helseF⟩ := ih helse
        split at hlast
        · rename_i closeRaw vs heq
          cases heq
          obtain ⟨G, read, rfl, rfl, hG⟩ := ih.after hlast
          exact ⟨_, by simp, .conditional condition raw elseRaw closeRaw hthenF helseF hG⟩
        · cases hlast
      · cases hmore
    · rename_i source raw
      obtain ⟨⟨body, us⟩, hbody, hmore⟩ := Option.bind_eq_some_iff.1 h
      clear h
      obtain ⟨bodyTs, rfl, hbodyF⟩ := ih hbody
      split at hmore
      · rename_i closeRaw us heq
        cases heq
        obtain ⟨G, read, rfl, rfl, hG⟩ := ih.after hmore
        exact ⟨_, by simp, .loop source raw closeRaw hbodyF hG⟩
      · cases hmore
    · cases h
      exact ⟨[], rfl, .nil⟩

end Nested

/-- The nodes of a source whose tags are well nested, by a number of steps. -/
def nodesWithin (cs : List Char) : Option (List Node) :=
  let tokens := trimLines [] (scanWithin (cs.length + 1) [] cs)
  match nested (tokens.length + 1) tokens with
  | some (F, []) => some F
  | _ => none

lemma compile_eq {source : String} {F : List Node} (h : nodesWithin source.toList = some F) :
    compile source = F := by
  rw [nodesWithin, scanWithin_eq (Nat.lt_succ_self _), ← tokenize] at h
  split at h
  · rename_i G hnested
    cases h
    obtain ⟨read, hread, hF⟩ := faithful_nested _ hnested
    rw [List.append_nil] at hread
    rw [compile, hread]
    exact parse_of_spells hF
  · cases h

end ViewWriter.Template
