import ViewWriter.Stylesheet.Basic

/-!
Stylesheets without repeated declarations and rules. A rule moves only over rules that set none of
its properties. Main statement: every step makes the stylesheet smaller.
-/

namespace ViewWriter.Stylesheet

/-- Keeps the last of equal declarations. -/
def lastOfEach : List StyleDeclaration → List StyleDeclaration
  | [] => []
  | d :: rest => if rest.contains d then lastOfEach rest else d :: lastOfEach rest

/-- Drops repeated declarations in the first rule that has any. -/
def trimFirst? : List Rule → Option (List Rule)
  | [] => none
  | r :: rest =>
    let kept := lastOfEach r.declarations
    if kept.length < r.declarations.length then some ({ r with declarations := kept } :: rest)
    else (trimFirst? rest).map (r :: ·)

def sharesProperty (a b : Rule) : Bool := a.properties.any b.properties.contains

/-- Two rules as one, in the place of the first, if they have a selector or a block in common. -/
def merge? (earlier later : Rule) : Option Rule :=
  if earlier.selector == later.selector then
    some ⟨earlier.selector, lastOfEach (earlier.declarations ++ later.declarations)⟩
  else if !earlier.declarations.isEmpty && earlier.declarations == later.declarations then
    some ⟨earlier.selector ++ ", " ++ later.selector, earlier.declarations⟩
  else none

/-- Merges the first rule that can be moved up into `earlier`; `between` holds the rules passed so
far, the last first. -/
def mergeInto? (earlier : Rule) (between : List Rule) : List Rule → Option (List Rule)
  | [] => none
  | later :: rest =>
    match if between.any (sharesProperty · later) then none else merge? earlier later with
    | some merged => some (merged :: between.reverse ++ rest)
    | none => mergeInto? earlier (later :: between) rest

/-- Merges the first pair of rules that can be merged. -/
def mergeFirst? : List Rule → Option (List Rule)
  | [] => none
  | r :: rest =>
    match mergeInto? r [] rest with
    | some rules => some rules
    | none => (mergeFirst? rest).map (r :: ·)

def step? (rules : List Rule) : Option (List Rule) :=
  match trimFirst? rules with
  | some rules => some rules
  | none => mergeFirst? rules

def size : List Rule → Nat
  | [] => 0
  | r :: rest => 1 + r.declarations.length + size rest

theorem size_append (a b : List Rule) : size (a ++ b) = size a + size b := by
  induction a with
  | nil => simp [size]
  | cons r rest ih =>
    simp only [List.cons_append, size, ih]
    omega

theorem size_reverse (a : List Rule) : size a.reverse = size a := by
  induction a with
  | nil => rfl
  | cons r rest ih =>
    simp only [List.reverse_cons, size_append, size, ih]
    omega

theorem lastOfEach_length (ds : List StyleDeclaration) :
    (lastOfEach ds).length ≤ ds.length := by
  induction ds with
  | nil => simp [lastOfEach]
  | cons d rest ih =>
    simp only [lastOfEach]
    split <;> simp only [List.length_cons] <;> omega

theorem trimFirst?_size {rules next : List Rule} (h : trimFirst? rules = some next) :
    size next < size rules := by
  induction rules generalizing next with
  | nil => simp [trimFirst?] at h
  | cons r rest ih =>
    simp only [trimFirst?] at h
    split at h
    · simp only [Option.some.injEq] at h
      subst h
      simp only [size]
      omega
    · obtain ⟨n, hn, rfl⟩ := Option.map_eq_some_iff.1 h
      have := ih hn
      simp only [size]
      omega

theorem merge?_size {a b m : Rule} (h : merge? a b = some m) :
    m.declarations.length ≤ a.declarations.length + b.declarations.length := by
  unfold merge? at h
  split at h
  · simp only [Option.some.injEq] at h
    subst h
    have := lastOfEach_length (a.declarations ++ b.declarations)
    simpa using this
  · split at h
    · simp only [Option.some.injEq] at h
      subst h
      simp
    · simp at h

theorem mergeInto?_size {earlier : Rule} {between rules next : List Rule}
    (h : mergeInto? earlier between rules = some next) :
    size next < 1 + earlier.declarations.length + size between + size rules := by
  induction rules generalizing between with
  | nil => simp [mergeInto?] at h
  | cons later rest ih =>
    simp only [mergeInto?] at h
    split at h
    · rename_i merged hm
      simp only [Option.some.injEq] at h
      subst h
      split at hm
      · simp at hm
      · have := merge?_size hm
        simp only [List.cons_append, size, size_append, size_reverse]
        omega
    · have := ih h
      simp only [size] at this ⊢
      omega

theorem mergeFirst?_size {rules next : List Rule} (h : mergeFirst? rules = some next) :
    size next < size rules := by
  induction rules generalizing next with
  | nil => simp [mergeFirst?] at h
  | cons r rest ih =>
    simp only [mergeFirst?] at h
    split at h
    · rename_i rs hm
      simp only [Option.some.injEq] at h
      subst h
      have := mergeInto?_size hm
      simp only [size] at this ⊢
      omega
    · obtain ⟨n, hn, rfl⟩ := Option.map_eq_some_iff.1 h
      have := ih hn
      simp only [size]
      omega

theorem step?_size {rules next : List Rule} (h : step? rules = some next) :
    size next < size rules := by
  unfold step? at h
  split at h
  · rename_i rs hm
    simp only [Option.some.injEq] at h
    exact h ▸ trimFirst?_size hm
  · exact mergeFirst?_size h

/-- Takes steps until none is left. -/
def merged (rules : List Rule) : List Rule :=
  match _h : step? rules with
  | some next => merged next
  | none => rules
  termination_by size rules
  decreasing_by exact step?_size _h

theorem step?_merged (rules : List Rule) : step? (merged rules) = none := by
  fun_induction merged rules with
  | case1 _ _ _ ih => exact ih
  | case2 _ h => exact h

end ViewWriter.Stylesheet
