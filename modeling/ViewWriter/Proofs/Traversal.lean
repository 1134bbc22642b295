import Mathlib.Data.List.Forall2
import Mathlib.Data.List.Nodup
import Mathlib.Data.List.Perm.Subperm
import Mathlib.Tactic.Lemma
import Mathlib.Tactic.SplitIfs
import ViewWriter.Attempt

/-! Lists gone through element by element: steps that may fail, and elements that were met before. -/

namespace ViewWriter

variable {α β ε : Type}

lemma map_eq_self {f : α → α} {xs : List α} (h : ∀ a ∈ xs, f a = a) : xs.map f = xs :=
  (List.map_congr_left h).trans (List.map_id xs)

lemma exists_of_mem_right {R : α → β → Prop} {xs : List α} {ys : List β}
    (h : List.Forall₂ R xs ys) {y : β} (hy : y ∈ ys) : ∃ x ∈ xs, R x y := by
  induction h with
  | nil => simp at hy
  | @cons a b xs ys hab _ ih =>
    rcases List.mem_cons.1 hy with rfl | hy
    · exact ⟨a, List.mem_cons_self, hab⟩
    · obtain ⟨x, hx, hxy⟩ := ih hy
      exact ⟨x, List.mem_cons_of_mem _ hx, hxy⟩

lemma mapM_eq_some_iff {f : α → Option β} {xs : List α} {ys : List β} :
    xs.mapM f = some ys ↔ List.Forall₂ (fun x y => f x = some y) xs ys := by
  induction xs generalizing ys with
  | nil => simp [eq_comm]
  | cons x rest ih =>
    rw [List.mapM_cons, List.forall₂_cons_left_iff]
    simp only [Option.bind_eq_bind, Option.bind_eq_some_iff, Option.pure_def, Option.some.injEq, ih]
    constructor
    · rintro ⟨y, hy, more, hm, rfl⟩
      exact ⟨y, more, hy, hm, rfl⟩
    · rintro ⟨y, more, hy, hm, rfl⟩
      exact ⟨y, hy, more, hm, rfl⟩

lemma bind_eq_ok_iff {x : Except ε α} {f : α → Except ε β} {b : β} :
    x >>= f = .ok b ↔ ∃ a, x = .ok a ∧ f a = .ok b := by
  cases x with
  | error e => simp [bind, Except.bind]
  | ok a => simp [bind, Except.bind]

lemma mapError_eq_ok_iff {ε' : Type} {f : ε → ε'} {x : Except ε α} {a : α} :
    x.mapError f = .ok a ↔ x = .ok a := by
  cases x <;> simp [Except.mapError]

lemma toOption_eq_some_iff {x : Except ε α} {a : α} : x.toOption = some a ↔ x = .ok a := by
  cases x <;> simp [Except.toOption]

lemma map_eq_ok_iff {f : α → β} {x : Except ε α} {b : β} :
    x.map f = .ok b ↔ ∃ a, x = .ok a ∧ f a = b := by
  cases x <;> simp [Except.map]

/-- Two steps whose results are put together succeed if and only if each of them does. -/
lemma combine_eq_ok_iff {γ : Type} {x : Except ε α} {y : Except ε β} {f : α → β → γ} {c : γ} :
    (do
      let a ← x
      let b ← y
      return f a b) = .ok c ↔ ∃ a b, x = .ok a ∧ y = .ok b ∧ c = f a b := by
  simp only [bind_eq_ok_iff, pure, Except.pure, Except.ok.injEq]
  constructor
  · rintro ⟨a, ha, b, hb, rfl⟩
    exact ⟨a, b, ha, hb, rfl⟩
  · rintro ⟨a, b, ha, hb, rfl⟩
    exact ⟨a, ha, b, hb, rfl⟩

lemma mapM_eq_ok_iff {f : α → Except ε β} {xs : List α} {ys : List β} :
    xs.mapM f = .ok ys ↔ List.Forall₂ (fun x y => f x = .ok y) xs ys := by
  induction xs generalizing ys with
  | nil => simp [pure, Except.pure, eq_comm]
  | cons x rest ih =>
    rw [List.mapM_cons, List.forall₂_cons_left_iff, combine_eq_ok_iff]
    simp only [ih, exists_and_left]

lemma mem_of_mapM {f : α → Except ε β} {xs : List α} {ys : List β} (h : xs.mapM f = .ok ys) {y : β} :
    y ∈ ys ↔ ∃ x ∈ xs, f x = .ok y := by
  rw [mapM_eq_ok_iff] at h
  refine ⟨exists_of_mem_right h, ?_⟩
  rintro ⟨x, hx, hxy⟩
  obtain ⟨z, hz, hxz⟩ := exists_of_mem_right h.flip hx
  cases hxy.symm.trans hxz
  exact hz

lemma exists_mapM {f : α → Except ε β} {xs : List α} (h : ∀ x ∈ xs, ∃ y, f x = .ok y) :
    ∃ ys, xs.mapM f = .ok ys := by
  induction xs with
  | nil => exact ⟨[], rfl⟩
  | cons x rest ih =>
    obtain ⟨y, hy⟩ := h x List.mem_cons_self
    obtain ⟨ys, hys⟩ := ih fun z hz => h z (List.mem_cons_of_mem _ hz)
    refine ⟨y :: ys, ?_⟩
    rw [List.mapM_cons, hy, hys]
    rfl

lemma exists_mapM_iff {f : α → Except ε β} {xs : List α} :
    (∃ ys, xs.mapM f = .ok ys) ↔ ∀ x ∈ xs, ∃ y, f x = .ok y := by
  refine ⟨fun ⟨ys, hys⟩ x hx => ?_, exists_mapM⟩
  obtain ⟨y, -, hy⟩ := exists_of_mem_right (mapM_eq_ok_iff.1 hys).flip hx
  exact ⟨y, hy⟩

lemma mapM_eq_error {f : α → Except ε β} {xs : List α} {e : ε}
    (hf : ∀ x ∈ xs, ∀ e', f x = .error e' → e' = e) (h : ∃ x ∈ xs, ∀ y, f x ≠ .ok y) :
    xs.mapM f = .error e := by
  induction xs with
  | nil => simp at h
  | cons x rest ih =>
    rw [List.mapM_cons]
    cases hx : f x with
    | error e' => rw [hf x List.mem_cons_self e' hx]; rfl
    | ok y =>
      obtain ⟨x', hmem, hx'⟩ := h
      rcases List.mem_cons.1 hmem with rfl | hmem
      · exact absurd hx (hx' y)
      · have hrest := ih (fun z hz => hf z (List.mem_cons_of_mem _ hz)) ⟨x', hmem, hx'⟩
        simp only [hrest, bind, Except.bind]

/-- What every step keeps holds in the end. -/
lemma foldlM_keeps {f : β → α → Except ε β} {P : β → Prop} {xs : List α} {b b' : β}
    (hstep : ∀ x ∈ xs, ∀ c c', P c → f c x = .ok c' → P c') (hb : P b)
    (h : xs.foldlM f b = .ok b') : P b' := by
  induction xs generalizing b with
  | nil =>
    cases h
    exact hb
  | cons x rest ih =>
    rw [List.foldlM_cons, bind_eq_ok_iff] at h
    obtain ⟨c, hc, hrest⟩ := h
    exact ih (fun y hy => hstep y (List.mem_cons_of_mem _ hy))
      (hstep x List.mem_cons_self _ _ hb hc) hrest

section Repetition

variable [BEq α]

lemma eraseDups_sublist (xs : List α) : xs.eraseDups.Sublist xs := by
  induction hn : xs.length using Nat.strongRecOn generalizing xs with
  | _ n ih =>
    cases xs with
    | nil => exact List.nil_sublist _
    | cons a rest =>
      rw [List.eraseDups_cons]
      have hfilter : (rest.filter fun b => !b == a).Sublist rest := List.filter_sublist
      refine List.Sublist.cons_cons a ((ih _ ?_ _ rfl).trans hfilter)
      exact hn ▸ Nat.lt_succ_of_le hfilter.length_le

variable [LawfulBEq α]

lemma nodup_eraseDups (xs : List α) : xs.eraseDups.Nodup := by
  induction hn : xs.length using Nat.strongRecOn generalizing xs with
  | _ n ih =>
    cases xs with
    | nil => exact List.nodup_nil
    | cons a rest =>
      rw [List.eraseDups_cons, List.nodup_cons]
      have hfilter : (rest.filter fun b => !b == a).Sublist rest := List.filter_sublist
      refine ⟨fun hm => ?_, ih _ (hn ▸ Nat.lt_succ_of_le hfilter.length_le) _ rfl⟩
      have ha := (List.mem_filter.1 (List.mem_eraseDups.1 hm)).2
      simp at ha

lemma length_eraseDups_iff {xs : List α} : xs.eraseDups.length = xs.length ↔ xs.Nodup := by
  refine ⟨fun h => (eraseDups_sublist xs).eq_of_length h ▸ nodup_eraseDups xs, fun h => ?_⟩
  have hsub : xs ⊆ xs.eraseDups := fun _ ha => List.mem_eraseDups.2 ha
  exact Nat.le_antisymm (eraseDups_sublist xs).length_le (List.subperm_of_subset h hsub).length_le

end Repetition

end ViewWriter

/-! First occurrences. Of the elements that have one name, the first stays. -/

namespace ViewWriter

variable {α : Type} {nameOf : α → Option String} {x : α} {xs rest : List α} {seen : List String}
  {name : String}

/-- The elements that have a name which no element before them has. -/
def firsts (nameOf : α → Option String) (xs : List α) : List α :=
  (xs.zipIdx.filter fun e =>
    (nameOf e.1).isSome && !((xs.take e.2).map nameOf).contains (nameOf e.1)).map (·.1)

/-- Those of them whose names are not among `seen`. -/
def firstsAfter (nameOf : α → Option String) (seen : List String) (xs : List α) : List α :=
  (firsts nameOf xs).filter fun x => !(nameOf x).any seen.contains

lemma firsts_cons (nameOf : α → Option String) (x : α) (rest : List α) :
    firsts nameOf (x :: rest) = if (nameOf x).isSome
      then x :: (firsts nameOf rest).filter (nameOf · != nameOf x) else firsts nameOf rest := by
  have hlater : (((rest.zipIdx 1).filter fun e => (nameOf e.1).isSome &&
        !(((x :: rest).take e.2).map nameOf).contains (nameOf e.1)).map (·.1)) =
      (firsts nameOf rest).filter (nameOf · != nameOf x) := by
    rw [List.zipIdx_succ, List.filter_map, List.map_map, firsts, List.filter_map, List.filter_filter]
    refine congrArg _ (List.filter_congr fun e _ => ?_)
    simp only [Function.comp_apply, List.take_succ_cons, List.map_cons, List.contains_cons, bne,
      Bool.not_or]
    exact Bool.and_left_comm _ _ _
  have hfirst : ((x :: rest).take 0).map nameOf = [] := rfl
  rw [firsts, List.zipIdx_cons, List.filter_cons, hfirst]
  simp only [Nat.zero_add, List.contains_nil, Bool.not_false, Bool.and_true]
  split_ifs with hname
  · rw [List.map_cons, hlater]
  · rw [hlater]
    refine List.filter_eq_self.2 fun y hy => ?_
    obtain ⟨e, he, rfl⟩ := List.mem_map.1 hy
    have hsome := (Bool.and_eq_true_iff.1 (List.mem_filter.1 he).2).1
    rw [bne_iff_ne]
    intro heq
    exact hname (heq ▸ hsome)

/-! A list is gone through element by element, and `seen` grows by the names that are met. -/

lemma firstsAfter_nil (seen : List String) : firstsAfter nameOf seen [] = [] := rfl

lemma firstsAfter_unnamed (hx : nameOf x = none) (seen : List String) (rest : List α) :
    firstsAfter nameOf seen (x :: rest) = firstsAfter nameOf seen rest := by
  rw [firstsAfter, firsts_cons, hx]
  rfl

lemma firstsAfter_seen (hx : nameOf x = some name) (hname : name ∈ seen) (rest : List α) :
    firstsAfter nameOf seen (x :: rest) = firstsAfter nameOf seen rest := by
  rw [firstsAfter, firsts_cons, hx, Option.isSome_some, if_pos rfl, List.filter_cons_of_neg,
    List.filter_filter, firstsAfter]
  · refine List.filter_congr fun y _ => ?_
    by_cases hy : nameOf y = some name <;> simp [hy, hname]
  · simp [hx, hname]

lemma firstsAfter_new (hx : nameOf x = some name) (hname : name ∉ seen) (rest : List α) :
    firstsAfter nameOf seen (x :: rest) = x :: firstsAfter nameOf (name :: seen) rest := by
  rw [firstsAfter, firsts_cons, hx, Option.isSome_some, if_pos rfl, List.filter_cons_of_pos,
    List.filter_filter, firstsAfter]
  · refine congrArg _ (List.filter_congr fun y _ => ?_)
    cases hy : nameOf y with
    | none => simp
    | some other => by_cases heq : other = name <;> simp [heq]
  · simp [hx, hname]

lemma firstsAfter_of_nil (xs : List α) : firstsAfter nameOf [] xs = firsts nameOf xs := by
  refine List.filter_eq_self.2 fun x _ => ?_
  cases nameOf x <;> rfl

lemma firstsAfter_congr {seen' : List String} (h : ∀ name, name ∈ seen ↔ name ∈ seen')
    (xs : List α) : firstsAfter nameOf seen xs = firstsAfter nameOf seen' xs := by
  refine List.filter_congr fun x _ => ?_
  cases nameOf x with
  | none => rfl
  | some name => simp [h]

lemma exists_firstsAfter : (∃ x ∈ firstsAfter nameOf seen xs, nameOf x = some name) ↔
    name ∉ seen ∧ ∃ x ∈ xs, nameOf x = some name := by
  induction xs generalizing seen with
  | nil => simp [firstsAfter_nil]
  | cons x rest ih =>
    rw [List.exists_mem_cons_iff]
    cases hx : nameOf x with
    | none =>
      rw [firstsAfter_unnamed hx, ih]
      simp
    | some own =>
      by_cases hown : own ∈ seen
      · rw [firstsAfter_seen hx hown, ih, Option.some.injEq]
        refine and_congr_right fun hnew => (or_iff_right ?_).symm
        rintro rfl
        exact hnew hown
      · rw [firstsAfter_new hx hown, List.exists_mem_cons_iff, hx, ih, List.mem_cons, Option.some.injEq]
        by_cases heq : own = name
        · subst heq
          simp [hown]
        · simp [heq, Ne.symm heq]

lemma exists_firsts : (∃ x ∈ firsts nameOf xs, nameOf x = some name) ↔
    ∃ x ∈ xs, nameOf x = some name := by
  rw [← firstsAfter_of_nil, exists_firstsAfter]
  simp

lemma exists_name_of_mem (h : x ∈ firstsAfter nameOf seen xs) : ∃ name, nameOf x = some name := by
  obtain ⟨e, he, rfl⟩ := List.mem_map.1 (List.mem_of_mem_filter h)
  exact Option.isSome_iff_exists.1 (Bool.and_eq_true_iff.1 (List.mem_filter.1 he).2).1

/-- If something can be made of each element that has a name, then it is made of all that are first. -/
lemma mapM_firsts {β : Type} {make : α → Option β}
    (hmake : ∀ x, (make x).isSome = (nameOf x).isSome) (xs : List α) :
    (firsts nameOf xs).mapM make = some ((firsts nameOf xs).filterMap make) := by
  have hnamed : ∀ x ∈ firsts nameOf xs, ∃ name, nameOf x = some name := fun x hx =>
    exists_name_of_mem (by rwa [firstsAfter_of_nil])
  generalize firsts nameOf xs = ys at hnamed
  induction ys with
  | nil => rfl
  | cons y rest ih =>
    obtain ⟨name, hname⟩ := hnamed y List.mem_cons_self
    obtain ⟨made, hmade⟩ := Option.isSome_iff_exists.1 ((hmake y).trans (by rw [hname]; rfl))
    rw [List.mapM_cons, hmade, ih fun z hz => hnamed z (List.mem_cons_of_mem _ hz),
      List.filterMap_cons_some hmade]
    rfl

lemma names_of_mapM_firstsAfter {β ε : Type} {make : α → Except ε β} {made : β → String} {ys : List β}
    (h : (firstsAfter nameOf seen xs).mapM make = .ok ys)
    (hmade : ∀ x name y, nameOf x = some name → make x = .ok y → made y = name) :
    ys.map made = (firstsAfter nameOf seen xs).filterMap nameOf := by
  have hnamed : ∀ x ∈ firstsAfter nameOf seen xs, ∃ name, nameOf x = some name :=
    fun x hx => exists_name_of_mem hx
  generalize firstsAfter nameOf seen xs = firsts at h hnamed
  rw [mapM_eq_ok_iff] at h
  induction h with
  | nil => rfl
  | @cons x y rest more hxy _ ih =>
    obtain ⟨name, hname⟩ := hnamed x List.mem_cons_self
    rw [List.filterMap_cons_some hname, List.map_cons, hmade x name y hname hxy,
      ih fun z hz => hnamed z (List.mem_cons_of_mem _ hz)]

lemma firstsAfter_sublist (seen : List String) (xs : List α) :
    (firstsAfter nameOf seen xs).Sublist xs := by
  induction xs generalizing seen with
  | nil => exact .slnil
  | cons x rest ih =>
    cases hx : nameOf x with
    | none =>
      rw [firstsAfter_unnamed hx]
      exact (ih seen).cons x
    | some own =>
      by_cases hown : own ∈ seen
      · rw [firstsAfter_seen hx hown]
        exact (ih seen).cons x
      · rw [firstsAfter_new hx hown]
        exact (ih _).cons_cons x

lemma nodup_firstsAfter (seen : List String) (xs : List α) :
    ((firstsAfter nameOf seen xs).filterMap nameOf).Nodup := by
  induction xs generalizing seen with
  | nil => exact .nil
  | cons x rest ih =>
    cases hx : nameOf x with
    | none =>
      rw [firstsAfter_unnamed hx]
      exact ih seen
    | some own =>
      by_cases hown : own ∈ seen
      · rw [firstsAfter_seen hx hown]
        exact ih seen
      · rw [firstsAfter_new hx hown, List.filterMap_cons_some hx, List.nodup_cons]
        refine ⟨fun hmem => ?_, ih _⟩
        exact (exists_firstsAfter.1 (List.mem_filterMap.1 hmem)).1 List.mem_cons_self

lemma nodup_firsts (nameOf : α → Option String) (xs : List α) :
    ((firsts nameOf xs).filterMap nameOf).Nodup := by
  rw [← firstsAfter_of_nil]
  exact nodup_firstsAfter [] xs

/-- Where no two elements have one name, every new name keeps its element. -/
lemma firstsAfter_of_nodup (h : (xs.filterMap nameOf).Nodup) (seen : List String) :
    firstsAfter nameOf seen xs = xs.filter fun x => (nameOf x).any fun name => !seen.contains name := by
  induction xs generalizing seen with
  | nil => rfl
  | cons x rest ih =>
    cases hx : nameOf x with
    | none =>
      rw [List.filterMap_cons_none hx] at h
      rw [firstsAfter_unnamed hx, ih h, List.filter_cons_of_neg (by simp [hx])]
    | some own =>
      rw [List.filterMap_cons_some hx, List.nodup_cons] at h
      by_cases hown : own ∈ seen
      · rw [firstsAfter_seen hx hown, ih h.2, List.filter_cons_of_neg (by simp [hx, hown])]
      · rw [firstsAfter_new hx hown, ih h.2, List.filter_cons_of_pos (by simp [hx, hown])]
        refine congrArg _ (List.filter_congr fun y hy => ?_)
        cases hname : nameOf y with
        | none => rfl
        | some other =>
          have hne : other ≠ own := fun heq => h.1 (List.mem_filterMap.2 ⟨y, hy, heq ▸ hname⟩)
          simp [hne]

end ViewWriter

/-! Runs of steps. One that stops has taken the steps before the one that failed, and no other. -/

namespace ViewWriter.Attempt

variable {σ ε α : Type} {P : σ → Prop} {step : σ → α → Except ε σ} {s : σ} {xs : List α} {e : ε}
  {first : Attempt σ ε} {next : σ → Attempt σ ε}

lemma foldlM_of_each (h : (each step s xs).failure = none) :
    xs.foldlM step s = .ok (each step s xs).state := by
  induction xs generalizing s with
  | nil => rfl
  | cons x rest ih =>
    rw [each] at h ⊢
    rw [List.foldlM_cons]
    split
    · rename_i s' hs
      rw [hs] at h ⊢
      exact ih h
    · rename_i e he
      rw [he] at h
      cases h

/-- A run that stops went through the elements before the one whose step failed. -/
lemma exists_stop (h : (each step s xs).failure = some e) : ∃ before a after,
    xs = before ++ a :: after ∧ before.foldlM step s = .ok (each step s xs).state ∧
      step (each step s xs).state a = .error e := by
  induction xs generalizing s with
  | nil => cases h
  | cons x rest ih =>
    rw [each] at h ⊢
    cases hx : step s x with
    | error e' =>
      rw [hx] at h
      cases h
      exact ⟨[], x, rest, rfl, rfl, hx⟩
    | ok s' =>
      rw [hx] at h
      obtain ⟨before, a, after, rfl, hbefore, ha⟩ := ih h
      refine ⟨x :: before, a, after, rfl, ?_, ha⟩
      rw [List.foldlM_cons, hx]
      exact hbefore

lemma each_keeps (hstep : ∀ a s s', P s → step s a = .ok s' → P s') (hs : P s) (xs : List α) :
    P (each step s xs).state := by
  induction xs generalizing s with
  | nil => exact hs
  | cons a rest ih =>
    rw [each]
    split
    · rename_i s' hs'
      exact ih (hstep a s s' hs hs')
    · exact hs

lemma andThen_of_done (h : (first.andThen next).failure = none) :
    first.failure = none ∧ first.andThen next = next first.state := by
  rw [andThen] at h ⊢
  split
  · rename_i hfirst
    exact ⟨hfirst, rfl⟩
  · rename_i e hfirst
    rw [hfirst] at h
    cases h.symm.trans hfirst

lemma andThen_of_stopped (h : (first.andThen next).failure = some e) :
    (first.failure = some e ∧ first.andThen next = first) ∨
      first.failure = none ∧ first.andThen next = next first.state := by
  rw [andThen] at h ⊢
  split
  · rename_i hfirst
    exact .inr ⟨hfirst, rfl⟩
  · rename_i e' hfirst
    rw [hfirst] at h
    exact .inl ⟨h, rfl⟩

lemma andThen_keeps (hfirst : P first.state) (hnext : ∀ s, P s → P (next s).state) :
    P (first.andThen next).state := by
  rw [andThen]
  split
  · exact hnext _ hfirst
  · exact hfirst

end ViewWriter.Attempt
