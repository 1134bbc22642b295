import Mathlib.Data.List.Nodup
import ViewWriter.Optimize
import ViewWriter.Proofs.Script.SharedRound

/-! Sharing in rounds until no block is repeated: it ends, its names are new, its declarations
stand in order before the first export, and inlining them gives the script back. -/

namespace ViewWriter.Script

open ViewWriter.Text

/-- Rounds of sharing, with the numbers of the blocks in order. -/
inductive SharedRun (unit : List Char) : List (List Char) → List ℕ → List (List Char) → Prop
  | done (xs : List (List Char)) : SharedRun unit xs [] xs
  | round {n : ℕ} {ns : List ℕ} {xs ys zs : List (List Char)} (h : SharedOnce unit n xs ys)
      (hrun : SharedRun unit ys ns zs) : SharedRun unit xs (n :: ns) zs

section Run

variable {unit : List Char} {ns : List ℕ} {xs ys zs : List (List Char)}

lemma SharedRun.fresh (hunit : ∀ c ∈ unit, isMargin c) (h : SharedRun unit xs ns ys) :
    ∀ n ∈ ns, ∀ l ∈ xs, Nat.toDigits 10 n ∉ sharedNumbers none l := by
  induction h with
  | done xs => simp
  | round h _ ih =>
    intro n hn l hl hmem
    rcases List.mem_cons.1 hn with rfl | hn
    · exact h.fresh l hl hmem
    · obtain ⟨m, hm, hmem⟩ := h.keeps hunit hl hmem
      exact ih n hn m hm hmem

lemma SharedRun.nodup (hunit : ∀ c ∈ unit, isMargin c) (h : SharedRun unit xs ns ys) :
    ns.Nodup := by
  induction h with
  | done xs => exact .nil
  | round h hrun ih =>
    refine List.nodup_cons.2 ⟨?_, ih⟩
    intro hn
    obtain ⟨m, hm, hmem⟩ := h.names
    exact hrun.fresh hunit _ hn m hm hmem

lemma SharedRun.declared (hunit : ∀ c ∈ unit, isMargin c) (h : SharedRun unit xs ns ys)
    {numbers : List ℕ} (hx : Declared numbers xs) : Declared (numbers ++ ns) ys := by
  induction h generalizing numbers with
  | done xs => simpa using hx
  | round h _ ih => simpa using ih (h.declared hunit hx)

lemma SharedRun.hasExport (h : SharedRun unit xs ns ys) (hx : hasExport xs = true) :
    hasExport ys = true := by
  induction h with
  | done xs => exact hx
  | round h _ ih => exact ih h.hasExport

lemma SharedRun.restored (hunit : ∀ c ∈ unit, isMargin c) (h : SharedRun unit xs ns ys) :
    SameLines (ns.foldr (inlined unit) ys) xs := by
  induction h with
  | done xs => exact .refl xs
  | round h _ ih => exact (ih.inlined unit _).trans (h.restored hunit)

end Run

/-- Whether a static block of at least `least` lines stands more than once. -/
def Repeats (least : ℕ) (cs : List Char) : Prop :=
  ∃ b, repeated? (staticBlocks least 0 (lines cs)) = some b

/-- Sharing comes to a repeated block for which there is no number. -/
inductive Stuck (unit : String) (least : ℕ) : List Char → Prop
  | here {cs : List Char} (h : Repeats least cs) (hn : ¬ Nameable cs) : Stuck unit least cs
  | later {cs next : List Char} (h : shareOnce? (.ok unit) least cs = .ok (some next))
      (hs : Stuck unit least next) : Stuck unit least cs

section Rounds

variable {unit : String} {least : ℕ} {cs : List Char}

lemma shareOnce?_of_not_repeats (h : ¬ Repeats least cs) :
    shareOnce? (.ok unit) least cs = .ok none := by
  have hnone : repeated? (staticBlocks least 0 (lines cs)) = none :=
    Option.eq_none_iff_forall_not_mem.2 fun b hb => h ⟨b, hb⟩
  simp only [shareOnce?, hnone]

lemma shareOnce?_of_not_nameable (h : Repeats least cs) (hn : ¬ Nameable cs) :
    shareOnce? (.ok unit) least cs = .error .content := by
  obtain ⟨b, hb⟩ := h
  simp only [shareOnce?, hb, nextShared_of_not_nameable hn]
  rfl

lemma shareOnce?_of_nameable (hunit : ∀ c ∈ unit.toList, isMargin c) (h : Repeats least cs)
    (hn : Nameable cs) (hexport : hasExport (lines cs) = true) :
    ∃ next, shareOnce? (.ok unit) least cs = .ok (some next) ∧
      SharedOnce unit.toList (greatest cs + 1) (lines cs) (lines next) := by
  obtain ⟨b, hb⟩ := h
  let name := sharedName (greatest cs + 1)
  let replaced := replaceCopies name 0 (lines cs) (copiesOf (staticBlocks least 0 (lines cs)) b)
  have hround : SharedOnce unit.toList (greatest cs + 1) (lines cs)
      (beforeExport (sharedDeclaration unit.toList name b.body) replaced) := by
    refine .intro (replaced_copiesOf (lines cs) name least b) (copies_of_repeated? hb).1 ?_ hexport
    intro l hl hmem
    exact toDigits_notMem (Nat.lt_succ_self _) (mem_sharedNumbers_iff.2 ⟨l, hl, hmem⟩)
  have hne : beforeExport (sharedDeclaration unit.toList name b.body) replaced ≠ [] := by
    intro hnil
    simpa [hnil, Script.hasExport] using hround.hasExport
  have hbreak := hround.notMem_break hunit fun l hl => notMem_of_splitOn hl
  refine ⟨unlines (beforeExport (sharedDeclaration unit.toList name b.body) replaced), ?_, ?_⟩
  · simp only [shareOnce?, hb, nextShared_of_nameable hn]
    rfl
  · rwa [lines_unlines hne hbreak]

lemma Stuck.repeats_or (h : Stuck unit least cs) :
    Repeats least cs ∧ ¬ Nameable cs ∨
      ∃ next, shareOnce? (.ok unit) least cs = .ok (some next) ∧ Stuck unit least next := by
  cases h with
  | here h hn => exact .inl ⟨h, hn⟩
  | later h hs => exact .inr ⟨_, h, hs⟩

lemma closers_of_repeats (h : Repeats least cs) : 0 < (lines cs).countP isCloser := by
  obtain ⟨b, hb⟩ := h
  obtain ⟨hcopies, hmem⟩ := copies_of_repeated? hb
  have hcount := (replaced_copiesOf (lines cs) (sharedName 0) least b).closers
  have hpos := (mem_staticBlocks_cases rfl hmem).2.isCopy.closers_pos
  have htwo := Nat.mul_le_mul_right (b.body.countP isCloser) hcopies
  omega

lemma shareRounds_succ (rounds : ℕ) (cs : List Char) :
    shareRounds (.ok unit) least (rounds + 1) cs =
      shareOnce? (.ok unit) least cs >>= fun
        | none => .ok cs
        | some next => shareRounds (.ok unit) least rounds next := rfl

/-- With a round for every end tag, sharing stops where no block is repeated, or where there is no
number for one. -/
lemma shareRounds_cases (hunit : ∀ c ∈ unit.toList, isMargin c) {rounds : ℕ}
    (hrounds : (lines cs).countP isCloser ≤ rounds) (hexport : hasExport (lines cs) = true) :
    (Stuck unit least cs → shareRounds (.ok unit) least rounds cs = .error .content) ∧
      (¬ Stuck unit least cs → ∃ out ns, shareRounds (.ok unit) least rounds cs = .ok out ∧
        SharedRun unit.toList (lines cs) ns (lines out) ∧ ¬ Repeats least out) := by
  induction rounds generalizing cs with
  | zero =>
    have hnot : ¬ Repeats least cs := fun h => by
      have := closers_of_repeats h
      omega
    refine ⟨fun hs => ?_, fun _ => ⟨cs, [], rfl, .done _, hnot⟩⟩
    rcases hs.repeats_or with ⟨h, -⟩ | ⟨next, h, -⟩
    · exact absurd h hnot
    · rw [shareOnce?_of_not_repeats hnot] at h
      cases h
  | succ rounds ih =>
    by_cases hrep : Repeats least cs
    · by_cases hname : Nameable cs
      · obtain ⟨next, hnext, hround⟩ := shareOnce?_of_nameable hunit hrep hname hexport
        have hlt := hround.closers_lt hunit
        have hrounds' : (lines next).countP isCloser ≤ rounds := by omega
        obtain ⟨hstuck, hfree⟩ := ih hrounds' hround.hasExport
        rw [shareRounds_succ, hnext]
        refine ⟨fun hs => hstuck ?_, fun hs => ?_⟩
        · rcases hs.repeats_or with ⟨-, h⟩ | ⟨next', h, hs'⟩
          · exact absurd hname h
          · obtain rfl : next = next' := by simpa [hnext] using h
            exact hs'
        · obtain ⟨out, ns, hout, hrun, hdone⟩ := hfree fun h => hs (.later hnext h)
          exact ⟨out, _ :: ns, hout, .round hround hrun, hdone⟩
      · rw [shareRounds_succ, shareOnce?_of_not_nameable hrep hname]
        exact ⟨fun _ => rfl, fun hs => absurd (.here hrep hname) hs⟩
    · rw [shareRounds_succ, shareOnce?_of_not_repeats hrep]
      refine ⟨fun hs => ?_, fun _ => ⟨cs, [], rfl, .done _, hrep⟩⟩
      rcases hs.repeats_or with ⟨h, -⟩ | ⟨next, h, -⟩
      · exact absurd h hrep
      · rw [shareOnce?_of_not_repeats hrep] at h
        cases h

end Rounds

section Result

variable {config : Config} {unit : String} {n : Int} {least : Json} {code : String}

/-- Sharing comes to a repeated block while a number in use cannot be read or the next one cannot
be written. -/
def Unnumberable (unit : String) (least : ℕ) (code : String) : Prop :=
  hasExport (lines code.toList) = true ∧ Stuck unit least code.toList

section Fragments

variable (hunit : config.indentUnit = .ok unit)
  (hleast : (if least.isNull then config.dedupeMinLines else least).toInteger = .ok n)

include hunit

lemma margin_of_indentUnit : ∀ c ∈ unit.toList, isMargin c := by
  intro c hc
  rw [Config.eq_space_of_indentUnit hunit c hc]
  rfl

include hleast

lemma fragments_eq (hexport : hasExport (lines code.toList) = true) :
    Optimize.fragments config least code =
      shareBlocks (.ok unit) (max n.toNat Optimize.leastLines) code := by
  simp only [Optimize.fragments, hexport, hleast, hunit]
  rfl

lemma fragments_unnumberable (h : Unnumberable unit (max n.toNat Optimize.leastLines) code) :
    Optimize.fragments config least code = .error .content := by
  obtain ⟨hexport, hstuck⟩ := h
  have hrounds : shareRounds (.ok unit) (max n.toNat Optimize.leastLines) _ code.toList = _ :=
    (shareRounds_cases (margin_of_indentUnit hunit) List.countP_le_length hexport).1 hstuck
  rw [fragments_eq hunit hleast hexport, shareBlocks]
  simp only [hrounds]
  rfl

/-- Unless there is no number for a block, sharing ends where no block is repeated. -/
lemma fragments_numberable (hexport : hasExport (lines code.toList) = true)
    (h : ¬ Unnumberable unit (max n.toNat Optimize.leastLines) code) :
    ∃ out ns, Optimize.fragments config least code = .ok out ∧
      SharedRun unit.toList (lines code.toList) ns (lines out.toList) ∧
      ¬ Repeats (max n.toNat Optimize.leastLines) out.toList := by
  have hfree : ¬ Stuck unit (max n.toNat Optimize.leastLines) code.toList := fun hs => h ⟨hexport, hs⟩
  obtain ⟨out, ns, hout, hrun, hdone⟩ :=
    (shareRounds_cases (margin_of_indentUnit hunit) List.countP_le_length hexport).2 hfree
  refine ⟨String.ofList out, ns, ?_, ?_, ?_⟩
  · rw [fragments_eq hunit hleast hexport, shareBlocks]
    simp only [hout]
    rfl
  · rwa [String.toList_ofList]
  · rwa [String.toList_ofList]

end Fragments

def twice : String := "export default x\n<p >\n</p>\n<p >\n</p>"

def numbered (digits : List Char) : List (List Char) :=
  lines twice.toList ++ [sharedStem ++ digits]

def unreadable : List Char := List.replicate (Number.maxDigits + 1) '1'

end Result

end ViewWriter.Script

/-! The rounds of sharing. Each leaves fewer end tags, so that sharing comes to an end, and where it
ends with a script no two static blocks have the same lines. -/

namespace ViewWriter.Script

open ViewWriter.Text

section Repeated

variable {blocks : List StaticBlock} {least : ℕ} {cs : List Char}

end Repeated

section Rounds

variable {unit : String} {least k : ℕ} {cs next last : List Char}

end Rounds

section Result

variable {config : Config} {unit : String} {n : Int} {least : Json} {code out : String}

end Result

end ViewWriter.Script
