import Mathlib.Tactic.Common
import ViewWriter.Template.Node

/-! Forests of templates spell the tokens they are read from, and well-nested tokens are read back
as the forest that spells them. -/

namespace ViewWriter.Template

/-- The tokens that a forest stands for, from left to right. Where `unpaired` holds, a text may also
stand for a block tag without its partner. -/
inductive Spells (unpaired : Bool) : List Node → List Token → Prop
  | nil : Spells unpaired [] []
  | text {F ts} (value raw : String) (h : Spells unpaired F ts) :
      Spells unpaired (.text value :: F) (.text value raw :: ts)
  | block {F ts} {t : Tag} (raw : String) (hu : unpaired = true) (ht : t.isBlock = true)
      (h : Spells unpaired F ts) : Spells unpaired (.text raw :: F) (.tag t raw :: ts)
  | interpolation {F ts} (path raw : String) (h : Spells unpaired F ts) :
      Spells unpaired (.interpolation path :: F) (.tag (.path path) raw :: ts)
  | call {F ts} (name : String) (args : List String) (raw : String) (h : Spells unpaired F ts) :
      Spells unpaired (.call name args raw :: F) (.tag (.helper name args) raw :: ts)
  | conditional {thenF elseF F thenTs elseTs ts} (condition raw elseRaw closeRaw : String)
      (hthen : Spells unpaired thenF thenTs) (helse : Spells unpaired elseF elseTs)
      (h : Spells unpaired F ts) :
      Spells unpaired (.conditional (.parse condition) thenF elseF :: F)
        (.tag (.ifOpen condition) raw :: (thenTs ++ .tag .ifElse elseRaw ::
          (elseTs ++ .tag .ifClose closeRaw :: ts)))
  | conditionalOnly {thenF F thenTs ts} (condition raw closeRaw : String)
      (hthen : Spells unpaired thenF thenTs) (h : Spells unpaired F ts) :
      Spells unpaired (.conditional (.parse condition) thenF [] :: F)
        (.tag (.ifOpen condition) raw :: (thenTs ++ .tag .ifClose closeRaw :: ts))
  | loop {body F bodyTs ts} (source raw closeRaw : String) (hbody : Spells unpaired body bodyTs)
      (h : Spells unpaired F ts) :
      Spells unpaired (.loop source body :: F)
        (.tag (.eachOpen source) raw :: (bodyTs ++ .tag .eachClose closeRaw :: ts))

def conditions : List Node → List Condition
  | [] => []
  | .conditional condition thenF elseF :: F =>
    condition :: (conditions thenF ++ conditions elseF ++ conditions F)
  | .loop _ body :: F => conditions body ++ conditions F
  | _ :: F => conditions F

namespace Spells

variable {unpaired : Bool} {F G : List Node} {ts us : List Token}

lemma append (h : Spells unpaired F ts) (hG : Spells unpaired G us) :
    Spells unpaired (F ++ G) (ts ++ us) := by
  induction h with
  | nil => exact hG
  | text value raw _ ih => exact .text value raw ih
  | block raw hu ht _ ih => exact .block raw hu ht ih
  | interpolation path raw _ ih => exact .interpolation path raw ih
  | call name args raw _ ih => exact .call name args raw ih
  | conditional condition raw elseRaw closeRaw hthen helse _ _ _ ih =>
    simpa using Spells.conditional condition raw elseRaw closeRaw hthen helse ih
  | conditionalOnly condition raw closeRaw hthen _ _ ih =>
    simpa using Spells.conditionalOnly condition raw closeRaw hthen ih
  | loop source raw closeRaw hbody _ _ ih => simpa using Spells.loop source raw closeRaw hbody ih

end Spells

lemma exists_spells (F : List Node) (h : ∀ c ∈ conditions F, ∃ s, Condition.parse s = c) :
    ∃ ts, Spells false F ts := by
  fun_induction conditions F with
  | case1 => exact ⟨[], .nil⟩
  | case2 condition thenF elseF F ihthen ihelse ih =>
    simp only [List.mem_cons, List.mem_append, or_imp, forall_and, forall_eq] at h
    obtain ⟨⟨s, rfl⟩, ⟨hthen, helse⟩, hF⟩ := h
    obtain ⟨thenTs, hthen⟩ := ihthen hthen
    obtain ⟨elseTs, helse⟩ := ihelse helse
    obtain ⟨ts, hF⟩ := ih hF
    exact ⟨_, .conditional s "" "" "" hthen helse hF⟩
  | case3 source body F ihbody ih =>
    simp only [List.mem_append, or_imp, forall_and] at h
    obtain ⟨bodyTs, hbody⟩ := ihbody h.1
    obtain ⟨ts, hF⟩ := ih h.2
    exact ⟨_, .loop source "" "" hbody hF⟩
  | case4 n F hc hl ih =>
    obtain ⟨ts, hF⟩ := ih h
    cases n with
    | text value => exact ⟨_, .text value "" hF⟩
    | interpolation path => exact ⟨_, .interpolation path "" hF⟩
    | conditional c t e => exact absurd rfl (hc c t e)
    | loop source body => exact absurd rfl (hl source body)
    | call name args raw => exact ⟨_, .call name args raw hF⟩

/-! The stretch that is read before a token that closes. -/

/-- No token that is left, or the first of them closes. -/
def Closers.StopsAt (c : Closers) (rest : List Token) : Prop := ∀ t ∈ rest.head?, c.closes t = true

@[simp] lemma Closers.stopsAt_cons {c : Closers} {t : Token} {rest : List Token} :
    c.StopsAt (t :: rest) ↔ c.closes t = true := by
  simp [Closers.StopsAt]

lemma stretch_stopsAt (c : Closers) (ts : List Token) : c.StopsAt (stretch c ts).rest := by
  fun_induction stretch c ts with
  | case1 => simp [Closers.StopsAt]
  | case2 c t rest h => simpa [Closers.StopsAt] using h
  | _ => assumption

@[simp] lemma Stretch.before_nodes {m n : ℕ} (first : List Node) (h : m ≤ n) (s : Stretch m) :
    (s.before first h).nodes = first ++ s.nodes := rfl

@[simp] lemma Stretch.before_rest {m n : ℕ} (first : List Node) (h : m ≤ n) (s : Stretch m) :
    (s.before first h).rest = s.rest := rfl

lemma stretch_spells (c : Closers) (ts : List Token) :
    ∃ read, ts = read ++ (stretch c ts).rest ∧ Spells true (stretch c ts).nodes read := by
  fun_induction stretch c ts with
  | case1 => exact ⟨[], rfl, .nil⟩
  | case2 c t rest h => exact ⟨[], rfl, .nil⟩
  | case3 c rest value raw h ih =>
    obtain ⟨read, hread, hs⟩ := ih
    exact ⟨_ :: read, congrArg _ hread, .text value raw hs⟩
  | case4 c rest path raw h ih =>
    obtain ⟨read, hread, hs⟩ := ih
    exact ⟨_ :: read, congrArg _ hread, .interpolation path raw hs⟩
  | case5 c rest name args raw h ih =>
    obtain ⟨read, hread, hs⟩ := ih
    exact ⟨_ :: read, congrArg _ hread, .call name args raw hs⟩
  | case6 c rest condition raw thenF closeRaw after _ _ _ hthen ihthen ih =>
    rw [hthen] at ihthen
    obtain ⟨thenTs, hrest, hthen⟩ := ihthen
    obtain ⟨read, hread, hs⟩ := ih
    refine ⟨_, ?_, .conditionalOnly condition raw closeRaw hthen hs⟩
    simpa [hrest] using hread
  | case7 c rest condition raw thenF elseRaw later _ elseF closeRaw after _ _ _ hthen _ helse ihthen
      ihelse ih =>
    rw [hthen] at ihthen
    rw [helse] at ihelse
    obtain ⟨thenTs, hrest, hthen⟩ := ihthen
    obtain ⟨elseTs, hlater, helse⟩ := ihelse
    obtain ⟨read, hread, hs⟩ := ih
    refine ⟨_, ?_, .conditional condition raw elseRaw closeRaw hthen helse hs⟩
    simpa [hrest, hlater] using hread
  | case8 c rest condition raw thenF elseRaw later _ elseF other _ _ _ _ hthen _ helse ihthen ihelse
      ih =>
    rw [hthen] at ihthen
    rw [helse] at ihelse
    obtain ⟨thenTs, hrest, hthen⟩ := ihthen
    obtain ⟨elseTs, hlater, helse⟩ := ihelse
    obtain ⟨read, hread, hs⟩ := ih
    have helse := Spells.block (t := .ifElse) elseRaw rfl rfl (helse.append hs)
    have hall := Spells.block (t := .ifOpen condition) raw rfl rfl (hthen.append helse)
    refine ⟨_, ?_, by simpa using hall⟩
    simpa [hrest, hlater] using hread
  | case9 c rest condition raw thenF other _ _ _ _ _ hthen ihthen ih =>
    rw [hthen] at ihthen
    obtain ⟨thenTs, hrest, hthen⟩ := ihthen
    obtain ⟨read, hread, hs⟩ := ih
    refine ⟨_, ?_, .block (t := .ifOpen condition) raw rfl rfl (hthen.append hs)⟩
    simpa [hrest] using hread
  | case10 c rest source raw body closeRaw after _ _ _ hbody ihbody ih =>
    rw [hbody] at ihbody
    obtain ⟨bodyTs, hrest, hbody⟩ := ihbody
    obtain ⟨read, hread, hs⟩ := ih
    refine ⟨_, ?_, .loop source raw closeRaw hbody hs⟩
    simpa [hrest] using hread
  | case11 c rest source raw body other _ _ _ _ hbody ihbody ih =>
    rw [hbody] at ihbody
    obtain ⟨bodyTs, hrest, hbody⟩ := ihbody
    obtain ⟨read, hread, hs⟩ := ih
    refine ⟨_, ?_, .block (t := .eachOpen source) raw rfl rfl (hbody.append hs)⟩
    simpa [hrest] using hread
  | case12 c rest t raw hpath hhelper _ _ h ih =>
    obtain ⟨read, hread, hs⟩ := ih
    refine ⟨_ :: read, congrArg _ hread, .block raw rfl ?_ hs⟩
    cases t with
    | path p => exact (hpath p rfl).elim
    | helper name args => exact (hhelper name args rfl).elim
    | _ => rfl

/-! Well-nested tokens. -/

section Closed

variable {c : Closers} {ts later after : List Token} {F G : List Node}

lemma stretch_conditional (condition raw : String) {elseRaw closeRaw : String}
    (hthen : (stretch { c with ifElse := true, ifClose := true } ts).nodes = F)
    (hthenRest : (stretch { c with ifElse := true, ifClose := true } ts).rest =
      .tag .ifElse elseRaw :: later)
    (helse : (stretch { c with ifClose := true } later).nodes = G)
    (helseRest : (stretch { c with ifClose := true } later).rest =
      .tag .ifClose closeRaw :: after) :
    (stretch c (.tag (.ifOpen condition) raw :: ts)).nodes =
        .conditional (.parse condition) F G :: (stretch c after).nodes ∧
      (stretch c (.tag (.ifOpen condition) raw :: ts)).rest = (stretch c after).rest := by
  rw [stretch.eq_def]
  simp only [Closers.closes, Bool.false_eq_true, if_false]
  generalize stretch { c with ifElse := true, ifClose := true } ts = s at *
  obtain ⟨thenF, thenRest, bound⟩ := s
  subst hthen hthenRest
  dsimp only
  generalize stretch { c with ifClose := true } later = s at *
  obtain ⟨elseF, elseRest, bound⟩ := s
  subst helse helseRest
  exact ⟨rfl, rfl⟩

lemma stretch_conditionalOnly (condition raw : String) {closeRaw : String}
    (hthen : (stretch { c with ifElse := true, ifClose := true } ts).nodes = F)
    (hthenRest : (stretch { c with ifElse := true, ifClose := true } ts).rest =
      .tag .ifClose closeRaw :: after) :
    (stretch c (.tag (.ifOpen condition) raw :: ts)).nodes =
        .conditional (.parse condition) F [] :: (stretch c after).nodes ∧
      (stretch c (.tag (.ifOpen condition) raw :: ts)).rest = (stretch c after).rest := by
  rw [stretch.eq_def]
  simp only [Closers.closes, Bool.false_eq_true, if_false]
  generalize stretch { c with ifElse := true, ifClose := true } ts = s at *
  obtain ⟨thenF, thenRest, bound⟩ := s
  subst hthen hthenRest
  exact ⟨rfl, rfl⟩

lemma stretch_loop (source raw : String) {closeRaw : String}
    (hbody : (stretch { c with eachClose := true } ts).nodes = F)
    (hbodyRest : (stretch { c with eachClose := true } ts).rest =
      .tag .eachClose closeRaw :: after) :
    (stretch c (.tag (.eachOpen source) raw :: ts)).nodes =
        .loop source F :: (stretch c after).nodes ∧
      (stretch c (.tag (.eachOpen source) raw :: ts)).rest = (stretch c after).rest := by
  rw [stretch.eq_def]
  simp only [Closers.closes, Bool.false_eq_true, if_false]
  generalize stretch { c with eachClose := true } ts = s at *
  obtain ⟨body, bodyRest, bound⟩ := s
  subst hbody hbodyRest
  exact ⟨rfl, rfl⟩

end Closed

lemma stretch_append {F : List Node} {ts : List Token} (h : Spells false F ts) (c : Closers)
    (rest : List Token) (hc : c.StopsAt rest) :
    (stretch c (ts ++ rest)).nodes = F ∧ (stretch c (ts ++ rest)).rest = rest := by
  induction h generalizing c rest with
  | nil =>
    cases rest with
    | nil => simp [stretch]
    | cons t rest =>
      rw [Closers.stopsAt_cons] at hc
      rw [stretch.eq_def]
      simp [hc]
  | text value raw _ ih =>
    have := ih c rest hc
    simpa [stretch, Closers.closes] using this
  | block raw hu => cases hu
  | interpolation path raw _ ih =>
    have := ih c rest hc
    simpa [stretch, Closers.closes] using this
  | call name args raw _ ih =>
    have := ih c rest hc
    simpa [stretch, Closers.closes] using this
  | @conditional thenF elseF F thenTs elseTs ts condition raw elseRaw closeRaw _ _ _ ihthen ihelse
      ih =>
    have hthen := ihthen { c with ifElse := true, ifClose := true }
      (.tag .ifElse elseRaw :: (elseTs ++ .tag .ifClose closeRaw :: (ts ++ rest)))
      (Closers.stopsAt_cons.2 rfl)
    have helse := ihelse { c with ifClose := true } (.tag .ifClose closeRaw :: (ts ++ rest))
      (Closers.stopsAt_cons.2 rfl)
    rw [List.cons_append, List.append_assoc, List.cons_append, List.append_assoc, List.cons_append]
    simpa [ih c rest hc] using
      stretch_conditional condition raw hthen.1 hthen.2 helse.1 helse.2
  | @conditionalOnly thenF F thenTs ts condition raw closeRaw _ _ ihthen ih =>
    have hthen := ihthen { c with ifElse := true, ifClose := true }
      (.tag .ifClose closeRaw :: (ts ++ rest)) (Closers.stopsAt_cons.2 rfl)
    rw [List.cons_append, List.append_assoc, List.cons_append]
    simpa [ih c rest hc] using
      stretch_conditionalOnly condition raw hthen.1 hthen.2
  | @loop body F bodyTs ts source raw closeRaw _ _ ihbody ih =>
    have hbody := ihbody { c with eachClose := true } (.tag .eachClose closeRaw :: (ts ++ rest))
      (Closers.stopsAt_cons.2 rfl)
    rw [List.cons_append, List.append_assoc, List.cons_append]
    simpa [ih c rest hc] using stretch_loop source raw hbody.1 hbody.2

lemma stretch_rest_eq_nil (ts : List Token) : (stretch {} ts).rest = [] := by
  have h := stretch_stopsAt {} ts
  cases hr : (stretch {} ts).rest with
  | nil => rfl
  | cons t rest =>
    rw [hr, Closers.stopsAt_cons] at h
    revert h
    cases t with
    | text value raw => simp [Closers.closes]
    | tag t raw => cases t <;> simp [Closers.closes]

lemma parse_of_spells {F : List Node} {ts : List Token} (h : Spells false F ts) : parse ts = F := by
  have hread := stretch_append h {} [] (by simp [Closers.StopsAt])
  rw [List.append_nil] at hread
  exact hread.1

/-- The forest read from any tokens spells them, and a forest without unpaired tags is read back from
all tokens it spells, which are some when each of its conditions can be written. -/
theorem parse_spells_and_reads_back :
    (∀ ts, Spells true (parse ts) ts) ∧
      (∀ F ts, Spells false F ts → parse ts = F) ∧
      ∀ F, (∀ c ∈ conditions F, ∃ s, Condition.parse s = c) → ∃ ts, Spells false F ts := by
  refine ⟨fun ts => ?_, fun F ts h => ?_, exists_spells⟩
  · obtain ⟨read, hread, hs⟩ := stretch_spells {} ts
    rw [stretch_rest_eq_nil, List.append_nil] at hread
    subst hread
    exact hs
  · have := stretch_append h {} [] (by simp [Closers.StopsAt])
    rw [List.append_nil] at this
    exact this.1

/-- A loop inside a conditional whose else branch is empty but for its tag, and a text after it. -/
lemma parse_reads_back_nested :
    let F := [.conditional (.parse "a") [.loop "xs" [.interpolation "item"]] [], .text "x"]
    let ts := [.tag (.ifOpen "a") "if", .tag (.eachOpen "xs") "each", .tag (.path "item") "item",
      .tag .eachClose "end", .tag .ifElse "else", .tag .ifClose "end", .text "x" "x"]
    (Spells false F ts ∧ parse ts = F) ∧ Spells true (parse ts) ts ∧
      (∀ c ∈ conditions F, ∃ s, Condition.parse s = c) ∧ ∃ ts, Spells false F ts := by
  intro F ts
  have hloop : Spells false [.loop "xs" [.interpolation "item"]]
      [.tag (.eachOpen "xs") "each", .tag (.path "item") "item", .tag .eachClose "end"] :=
    .loop "xs" "each" "end" (.interpolation "item" "item" .nil) .nil
  have hF : Spells false F ts := .conditional "a" "if" "else" "end" hloop .nil (.text "x" "x" .nil)
  have hc : ∀ c ∈ conditions F, ∃ s, Condition.parse s = c := by simp [F, conditions]
  exact ⟨⟨hF, parse_spells_and_reads_back.2.1 F ts hF⟩, parse_spells_and_reads_back.1 ts, hc,
    parse_spells_and_reads_back.2.2 F hc⟩

end ViewWriter.Template
