import ViewWriter.Name.Sanitizer
import ViewWriter.Proofs.Name.Fresh
import ViewWriter.Proofs.Traversal

/-! Requests that are made to one sanitizer after the other. Each that has a name to fall back on is
answered, and those for unique names get names that differ. -/

namespace ViewWriter.Name

lemma orDefault_eq_empty_iff {s default : String} : orDefault s default = "" ↔ s = "" ∧ default = "" := by
  rw [orDefault]
  split_ifs with h
  · rw [beq_iff_eq.1 h, and_iff_right rfl]
  · rw [beq_iff_eq] at h
    exact iff_of_false h fun hboth => h hboth.1

namespace Sanitizer

variable {s next last : Sanitizer} {r : Request} {requests rest : List Request} {name : String}
  {names : List String}

/-! One request. -/

/-- There is no natural name only where no word is left and nothing to fall back on. -/
lemma exists_natural_iff :
    (∃ name, s.natural r = .ok name) ↔ spell r.case r.name ≠ "" ∨ r.fallback ≠ "" := by
  rw [← not_and_or, ← orDefault_eq_empty_iff, natural]
  split
  · rename_i hchars
    simp [String.toList_eq_nil_iff.1 hchars]
  · rename_i hchars
    refine iff_of_true ⟨_, rfl⟩ fun hempty => ?_
    rw [hempty] at hchars
    cases hchars

/-- The answer to a request is its natural name. A unique name is searched for from there on, among the
names that were not given out before, and is given out with the answer. -/
inductive Answers (s : Sanitizer) (r : Request) : String → Sanitizer → Prop
  | plain {name : String} : s.natural r = .ok name → r.unique = false → Answers s r name s
  | unique {natural found : String} : s.natural r = .ok natural → r.unique = true →
      Search s.used (natural ++ toString ·) 2 natural found →
      Answers s r found { s with used := found :: s.used }

lemma sanitize_eq_ok_iff : s.sanitize r = .ok (name, next) ↔ s.Answers r name next := by
  rw [sanitize, bind_eq_ok_iff]
  constructor
  · rintro ⟨natural, hnatural, h⟩
    split_ifs at h with hunique
    · cases h
      exact .unique hnatural hunique (search_fresh (numbered_inj natural) s.used natural)
    · cases h
      exact .plain hnatural (eq_false_of_ne_true hunique)
  · intro h
    cases h with
    | plain hnatural hplain =>
      refine ⟨_, hnatural, ?_⟩
      rw [hplain]
      rfl
    | @unique natural _ hnatural hunique hsearch =>
      obtain rfl := hsearch.unique (search_fresh (numbered_inj natural) s.used natural)
      refine ⟨_, hnatural, ?_⟩
      rw [hunique]
      rfl

lemma exists_answers (s : Sanitizer) (h : r.fallback ≠ "") : ∃ name next, s.Answers r name next := by
  obtain ⟨natural, hnatural⟩ := exists_natural_iff.2 (.inr h)
  cases hunique : r.unique with
  | false => exact ⟨natural, s, .plain hnatural hunique⟩
  | true => exact ⟨_, _, .unique hnatural hunique (search_fresh (numbered_inj natural) s.used natural)⟩

/-! Requests one after the other. -/

/-- The names that requests get, and the sanitizer after them. -/
def sanitizeAll (s : Sanitizer) : List Request → Except Fault (List String × Sanitizer)
  | [] => .ok ([], s)
  | r :: rest => do
    let (name, next) ← s.sanitize r
    let (names, last) ← next.sanitizeAll rest
    return (name :: names, last)

/-- Each request is answered by the sanitizer as the one before left it. -/
inductive AnswersAll : Sanitizer → List Request → List String → Sanitizer → Prop
  | nil {s : Sanitizer} : AnswersAll s [] [] s
  | cons {s next last : Sanitizer} {r : Request} {rest : List Request} {name : String}
      {names : List String} : s.Answers r name next → AnswersAll next rest names last →
      AnswersAll s (r :: rest) (name :: names) last

/-- The names among the answers that were asked for as unique ones. -/
def uniqueNames (requests : List Request) (names : List String) : List String :=
  ((requests.zip names).filter (·.1.unique)).map (·.2)

lemma sanitizeAll_of_answersAll (h : s.AnswersAll requests names last) :
    s.sanitizeAll requests = .ok (names, last) := by
  induction h with
  | nil => rfl
  | cons hanswer _ ih =>
    rw [sanitizeAll, sanitize_eq_ok_iff.2 hanswer, bind_eq_ok_iff]
    exact ⟨_, rfl, bind_eq_ok_iff.2 ⟨_, ih, rfl⟩⟩

lemma exists_answersAll (s : Sanitizer) (h : ∀ r ∈ requests, r.fallback ≠ "") :
    ∃ names last, s.AnswersAll requests names last := by
  induction requests generalizing s with
  | nil => exact ⟨[], s, .nil⟩
  | cons r rest ih =>
    obtain ⟨hr, hrest⟩ := List.forall_mem_cons.1 h
    obtain ⟨name, next, hanswer⟩ := exists_answers s hr
    obtain ⟨names, last, hanswers⟩ := ih next hrest
    exact ⟨name :: names, last, .cons hanswer hanswers⟩

namespace AnswersAll

lemma length_eq (h : s.AnswersAll requests names last) : names.length = requests.length := by
  induction h with
  | nil => rfl
  | cons _ _ ih => rw [List.length_cons, List.length_cons, ih]

lemma searches (h : s.AnswersAll requests names last) :
    Searches s.used (uniqueNames requests names) := by
  induction h with
  | nil => exact .nil
  | cons hanswer _ ih =>
    rw [uniqueNames, List.zip_cons_cons]
    cases hanswer with
    | plain _ hplain =>
      -- the name is passed over here, as it is not added to those given out
      rw [List.filter_cons_of_neg (by simpa using hplain)]
      exact ih
    | unique _ hunique hsearch =>
      rw [List.filter_cons_of_pos (by simpa using hunique), List.map_cons]
      exact .cons hsearch ih

end AnswersAll

/-- Requests that have names to fall back on are all answered, and the searches for unique names end. No
two of the unique names are the same, nor is any of them one that was given out before, also where a name
with a number is the natural name of another request. -/
theorem unique_names_distinct (s : Sanitizer) {requests : List Request}
    (h : ∀ r ∈ requests, r.fallback ≠ "") :
    ∃ names last, s.sanitizeAll requests = .ok (names, last) ∧ s.AnswersAll requests names last ∧
      names.length = requests.length ∧ (uniqueNames requests names).Nodup ∧
      ∀ name ∈ uniqueNames requests names, name ∉ s.used := by
  obtain ⟨names, last, hanswers⟩ := exists_answersAll s h
  exact ⟨names, last, sanitizeAll_of_answersAll hanswers, hanswers, hanswers.length_eq,
    hanswers.searches.nodup, hanswers.searches.notMem⟩

/-- Requests of which some have the natural names that others get with a digit, a suffix or a number. -/
def alikeRequests : List Request := [
  { name := "user card", unique := true },
  { name := "UserCard", unique := true },
  { name := "user-card2", unique := true },
  { name := "", unique := true, fallback := "userCard" },
  { name := "user_card" },
  { name := "2nd", case := .snake, unique := true },
  { name := "value 2nd", case := .snake, unique := true },
  { name := "class", suffix := "2", unique := true },
  { name := "class2", unique := true }]

theorem unique_names_distinct_alike :
    (∀ r ∈ alikeRequests, r.fallback ≠ "") ∧
      let names := ["userCard", "userCard2", "userCard22", "userCard3", "userCard", "value_2nd",
        "value_2nd2", "class2", "class22"]
      ∃ last, script.sanitizeAll alikeRequests = .ok (names, last) ∧
        script.AnswersAll alikeRequests names last ∧ (uniqueNames alikeRequests names).Nodup := by
  have hfallback : ∀ r ∈ alikeRequests, r.fallback ≠ "" := by decide
  refine ⟨hfallback, ?_⟩
  obtain ⟨names, last, hnames, hanswers, -, hdistinct, -⟩ := unique_names_distinct script hfallback
  have hcomputed : (script.sanitizeAll alikeRequests).map (·.1) = .ok ["userCard", "userCard2", "userCard22",
      "userCard3", "userCard", "value_2nd", "value_2nd2", "class2", "class22"] := by
    decide +kernel
  rw [hnames] at hcomputed
  cases hcomputed
  exact ⟨last, hnames, hanswers, hdistinct⟩

end Sanitizer

end ViewWriter.Name
