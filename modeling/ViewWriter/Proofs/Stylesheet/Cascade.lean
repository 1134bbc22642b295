import Mathlib.Data.Prod.Lex
import Mathlib.Tactic.Lemma
import Mathlib.Tactic.Order
import Mathlib.Tactic.SplitIfs
import ViewWriter.Stylesheet.Basic

/-! The declaration that an element takes from a list of rules: the strongest one by priority,
then by specificity, then by place. -/

namespace ViewWriter.Stylesheet

/-- The pieces of a selector, cut at every comma with a space. -/
def selectorPieces : List Char → List (List Char)
  | [] => [[]]
  | ',' :: ' ' :: rest => [] :: selectorPieces rest
  | c :: rest =>
    match selectorPieces rest with
    | [] => [[c]]
    | piece :: pieces => (c :: piece) :: pieces

def combined {α : Type*} (f : α → α → α) : List α → Option α
  | [] => none
  | a :: rest => Option.merge f (some a) (combined f rest)

/-- Of two candidates in source order, the second unless the first has a greater key. -/
def later {κ δ : Type*} [LinearOrder κ] (a b : κ × δ) : κ × δ := if a.1 ≤ b.1 then b else a

/-- An element in a browser: the atomic selectors that match it, their specificity, the priority
of declarations and those that the browser understands. -/
structure Cascade (σ π : Type*) where
  matched : String → Bool
  specificity : String → σ
  priority : StyleDeclaration → π
  understood : StyleDeclaration → Bool

namespace Cascade

variable {σ π : Type*} [LinearOrder σ] [LinearOrder π] (c : Cascade σ π)

def matchedPieces (selector : String) : List String :=
  ((selectorPieces selector.toList).map String.ofList).filter c.matched

/-- The best specificity among the matched pieces of a selector, if there are any. -/
def weight? (selector : String) : Option σ :=
  combined max ((c.matchedPieces selector).map c.specificity)

def candidates (property : String) (weight : σ) (ds : List StyleDeclaration) :
    List ((π ×ₗ σ) × StyleDeclaration) :=
  (ds.filter fun d => d.1 == property && c.understood d).map fun d =>
    (toLex (c.priority d, weight), d)

/-- The candidates for a property in a rule; a rule that does not apply has none. -/
def ruleCandidates (property : String) (r : Rule) : List ((π ×ₗ σ) × StyleDeclaration) :=
  match c.weight? r.selector with
  | none => []
  | some w => c.candidates property w r.declarations

/-- The declaration that an element takes for a property: nothing before it is stronger, and all
after it is weaker. -/
def Decides (property : String) (rules : List Rule) (d : StyleDeclaration) : Prop :=
  ∃ before key after, rules.flatMap (c.ruleCandidates property) = before ++ (key, d) :: after ∧
    (∀ b ∈ before, b.1 ≤ key) ∧ ∀ b ∈ after, b.1 < key

def strongest (property : String) (rules : List Rule) : Option ((π ×ₗ σ) × StyleDeclaration) :=
  combined later (rules.flatMap (c.ruleCandidates property))

end Cascade

section Combined

variable {α β : Type*} {f : α → α → α}

lemma merge_assoc [Std.Associative f] (a b c : Option α) :
    Option.merge f (Option.merge f a b) c = Option.merge f a (Option.merge f b c) :=
  (Option.associative_merge f).assoc a b c

lemma combined_append [Std.Associative f] (xs ys : List α) :
    combined f (xs ++ ys) = Option.merge f (combined f xs) (combined f ys) := by
  induction xs with
  | nil => simp [combined]
  | cons x rest ih =>
    rw [List.cons_append, combined, combined, ih, merge_assoc]

lemma combined_map {g : β → β → β} (h : α → β) (hh : ∀ a b, g (h a) (h b) = h (f a b))
    (xs : List α) : combined g (xs.map h) = (combined f xs).map h := by
  induction xs with
  | nil => rfl
  | cons x rest ih =>
    rw [List.map_cons, combined, combined, ih]
    cases combined f rest with
    | none => rfl
    | some s => simp [hh]

lemma combined_eq_none_iff {xs : List α} : combined f xs = none ↔ xs = [] := by
  cases xs with
  | nil => simp [combined]
  | cons x rest => simp [combined, Option.merge_eq_none_iff]

end Combined

section Later

variable {κ δ : Type*} [LinearOrder κ]

instance : Std.Associative (later : κ × δ → κ × δ → κ × δ) where
  assoc a b c := by
    unfold later
    split_ifs <;> first | rfl | (exfalso; order)

lemma later_self (a : κ × δ) : later a a = a := by simp [later]

/-- An earlier copy of a candidate changes nothing. -/
lemma later_absorb (a b : κ × δ) : later a (later b a) = later b a := by
  unfold later
  split_ifs <;> first | rfl | (exfalso; order)

lemma merge_absorb (a b : Option (κ × δ)) :
    Option.merge later a (Option.merge later b a) = Option.merge later b a := by
  cases a with
  | none => simp
  | some a =>
    cases b with
    | none => simp [later_self]
    | some b => simp [later_absorb]

lemma merge_combined_of_mem {a : κ × δ} {xs : List (κ × δ)} (h : a ∈ xs) :
    Option.merge later (some a) (combined later xs) = combined later xs := by
  induction xs with
  | nil => simp at h
  | cons x rest ih =>
    rw [combined]
    rcases List.mem_cons.1 h with rfl | h
    · rw [← merge_assoc, Option.merge_some_some, later_self]
    · calc Option.merge later (some a) (Option.merge later (some x) (combined later rest))
          = Option.merge later (some a) (Option.merge later (some x)
              (Option.merge later (some a) (combined later rest))) := by rw [ih h]
        _ = Option.merge later (Option.merge later (some a) (Option.merge later (some x) (some a)))
              (combined later rest) := by rw [merge_assoc, merge_assoc]
        _ = Option.merge later (some x)
              (Option.merge later (some a) (combined later rest)) := by rw [merge_absorb, merge_assoc]
        _ = Option.merge later (some x) (combined later rest) := by rw [ih h]

lemma mem_of_combined {a : κ × δ} {xs : List (κ × δ)} (h : combined later xs = some a) :
    a ∈ xs := by
  induction xs generalizing a with
  | nil => simp [combined] at h
  | cons x rest ih =>
    rw [combined, Option.merge_eq_some_iff] at h
    rcases h with ⟨h, _⟩ | ⟨h, _⟩ | ⟨b, s, hb, hs, h⟩
    · simp only [Option.some.injEq] at h
      simp [h]
    · simp at h
    · obtain rfl := Option.some.inj hb
      unfold later at h
      split_ifs at h
      · exact List.mem_cons_of_mem _ (h ▸ ih hs)
      · simp [h]

lemma combined_of_split {a : κ × δ} {before after : List (κ × δ)} (hb : ∀ b ∈ before, b.1 ≤ a.1)
    (ha : ∀ b ∈ after, b.1 < a.1) : combined later (before ++ a :: after) = some a := by
  have hafter : Option.merge later (some a) (combined later after) = some a := by
    cases hs : combined later after with
    | none => rfl
    | some s => simp [later, ha s (mem_of_combined hs)]
  rw [combined_append, combined, hafter]
  cases hs : combined later before with
  | none => rfl
  | some s => simp [later, hb s (mem_of_combined hs)]

lemma split_of_combined {a : κ × δ} {xs : List (κ × δ)} (h : combined later xs = some a) :
    ∃ before after, xs = before ++ a :: after ∧
      (∀ b ∈ before, b.1 ≤ a.1) ∧ ∀ b ∈ after, b.1 < a.1 := by
  induction xs generalizing a with
  | nil => simp [combined] at h
  | cons x rest ih =>
    cases hs : combined later rest with
    | none =>
      obtain rfl := combined_eq_none_iff.1 hs
      obtain rfl : x = a := by simpa [combined] using h
      exact ⟨[], [], rfl, by simp, by simp⟩
    | some s =>
      obtain ⟨before, after, rfl, hb, ha⟩ := ih hs
      rw [combined, hs, Option.merge_some_some, Option.some.injEq, later] at h
      split_ifs at h with hxs
      · subst h
        exact ⟨x :: before, after, rfl, by simpa [hxs] using hb, ha⟩
      · subst h
        refine ⟨[], before ++ s :: after, rfl, by simp, ?_⟩
        intro b hmem
        have hsx : s.1 < x.1 := not_le.1 hxs
        rcases List.mem_append.1 hmem with hmem | hmem
        · exact (hb b hmem).trans_lt hsx
        · rcases List.mem_cons.1 hmem with rfl | hmem
          · exact hsx
          · exact (ha b hmem).trans hsx

end Later

namespace Cascade

variable {σ π : Type*} [LinearOrder σ] [LinearOrder π] (c : Cascade σ π)

lemma decides_iff_strongest {property : String} {rules : List Rule} {d : StyleDeclaration} :
    c.Decides property rules d ↔ ∃ key, c.strongest property rules = some (key, d) := by
  constructor
  · rintro ⟨before, key, after, h, hb, ha⟩
    refine ⟨key, ?_⟩
    rw [strongest, h]
    exact combined_of_split hb ha
  · rintro ⟨key, h⟩
    obtain ⟨before, after, h, hb, ha⟩ := split_of_combined h
    exact ⟨before, key, after, h, hb, ha⟩

lemma strongest_append (property : String) (rules more : List Rule) :
    c.strongest property (rules ++ more) =
      Option.merge later (c.strongest property rules) (c.strongest property more) := by
  rw [strongest, List.flatMap_append, combined_append]
  rfl

end Cascade

end ViewWriter.Stylesheet
