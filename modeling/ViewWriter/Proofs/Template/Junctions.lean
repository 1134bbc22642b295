import ViewWriter.Proofs.Template.Calls
import ViewWriter.Proofs.Template.Parts

/-! Where the texts of a template meet those that are filled in. A template that keeps them apart
writes no needle that is neither in its own texts nor in those that it reads. -/

namespace ViewWriter.Template

open ViewWriter.Text

/-- What is known of how a text begins: nothing, that it does not go on like the needle after its
first character, or that it begins with a stop if it is not empty. -/
inductive Opening where
  | any
  | apart
  | stop
deriving DecidableEq

namespace Opening

def meet : Opening → Opening → Opening
  | any, _ | _, any => any
  | stop, stop => stop
  | _, _ => apart

def ofText (after : Opening) : List Char → Opening
  | [] => after
  | c :: _ => if isStop c then stop else if c == '/' then any else apart

def Holds (n : Needle) (cs : List Char) : Opening → Prop
  | any => True
  | apart => ¬ n.Continues cs
  | stop => ∀ c ∈ cs.head?, isStop c = true

variable {n : Needle} {cs ds : List Char} {o p : Opening}

lemma Holds.apart (h : o.Holds n cs) (ho : o ≠ any) : ¬ n.Continues cs := by
  cases o with
  | any => exact absurd rfl ho
  | apart => exact h
  | stop => exact Needle.not_continues_of_stop h

lemma Holds.meet_left (h : o.Holds n cs) (p : Opening) : (o.meet p).Holds n cs := by
  cases o <;> cases p <;> first | trivial | exact h | exact h.apart (by decide)

lemma Holds.meet_right (h : p.Holds n cs) (o : Opening) : (o.meet p).Holds n cs := by
  cases o <;> cases p <;> first | trivial | exact h | exact h.apart (by decide)

lemma holds_ofText (h : o.Holds n ds) (cs : List Char) : (o.ofText cs).Holds n (cs ++ ds) := by
  cases cs with
  | nil => exact h
  | cons c cs =>
    rw [ofText]
    split_ifs with hstop hslash
    · exact fun d hd => Option.some.inj hd ▸ hstop
    · trivial
    · exact Needle.not_continues_cons fun hc => hslash (beq_iff_eq.2 hc)

end Opening

/-- What a template reads, in the segments of paths. -/
structure Reading where
  /-- the first character of the needle -/
  head : Char
  /-- own texts without the needle -/
  isOwn : String → Bool
  /-- values of which all texts avoid the needle -/
  paths : List (List String)
  /-- lists of items of which all texts avoid the needle -/
  loops : List (List String) := []
  /-- texts without slashes -/
  names : List (List String) := []
  /-- texts that do not go on like the needle after its first character -/
  tails : List (List String) := []
  /-- what is escaped may have the needle -/
  escapes : Bool := false

/-- Segments that lead neither to the item of a loop nor to its index. -/
def isOuter (path : List String) : Bool := path.head?.any fun s => s != "item" && s != "index"

def isInItem (path : List String) : Bool := path.head? == some "item"

def isLookup (operand : String) : Bool :=
  let s := trimmed operand
  (quotedInside? s.toList).isNone && !isNumeral s.toList && (keywords.lookup s).isNone

namespace Reading

def reads (R : Reading) (path : List String) : Bool := R.paths.contains path || isInItem path

def isCallable (R : Reading) (name : String) : List String → Bool
  | [] => false
  | path :: more =>
    mildCalls.contains (name, more) && isLookup path &&
      (R.reads (segments (trimmed path)) || (R.escapes && name == "htmlEscape"))

/-- The lists say nothing of items by themselves, and nothing of indices. -/
def isProper (R : Reading) : Bool :=
  (R.paths ++ R.loops).all isOuter &&
    (R.names ++ R.tails).all fun path => isOuter path || isInItem path

end Reading

mutual

def Node.opening (R : Reading) (after : Opening) : Node → Opening
  | .text s => after.ofText s.toList
  | .interpolation path =>
    if (R.names.contains (segments path) && after != .any) ||
      (R.tails.contains (segments path) && after == .stop) then .apart else .any
  | .conditional _ thenBranch elseBranch =>
    (openingOf R after thenBranch).meet (openingOf R after elseBranch)
  | .loop source body =>
    if R.loops.contains (segments source) then after.meet (openingOf R .any body) else .any
  | .call _ _ _ => .any

/-- How the text of nodes begins in front of another. -/
def openingOf (R : Reading) (after : Opening) : List Node → Opening
  | [] => after
  | n :: rest => n.opening R (openingOf R after rest)

end

mutual

def Node.isApart (R : Reading) (after : Opening) : Node → Bool
  | .text s =>
    R.isOwn s && isSettled R.head s.toList && (s.toList.getLast? != some R.head || after != .any)
  | .interpolation path =>
    R.reads (segments path) &&
      (after == .stop || (R.names.contains (segments path) && after != .any))
  | .conditional _ thenBranch elseBranch => areApart R after thenBranch && areApart R after elseBranch
  | .loop source body =>
    R.loops.contains (segments source) && areApart R (after.meet (openingOf R .any body)) body
  | .call name args raw => after == .stop && R.isOwn raw && R.isCallable name args

/-- All that is filled in is kept apart from what follows it. -/
def areApart (R : Reading) (after : Opening) : List Node → Bool
  | [] => true
  | n :: rest => n.isApart R (openingOf R after rest) && areApart R after rest

end

section Append

variable {R : Reading} {after : Opening}

lemma openingOf_append (nodes more : List Node) :
    openingOf R after (nodes ++ more) = openingOf R (openingOf R after more) nodes := by
  induction nodes with
  | nil => rfl
  | cons n rest ih => rw [List.cons_append, openingOf, ih, openingOf]

lemma areApart_append (nodes more : List Node) : areApart R after (nodes ++ more) =
    (areApart R (openingOf R after more) nodes && areApart R after more) := by
  induction nodes with
  | nil => rfl
  | cons n rest ih =>
    rw [List.cons_append, areApart, ih, areApart, openingOf_append, Bool.and_assoc]

end Append

/-- What a reading says of a text under a path. -/
def Reading.Fits (R : Reading) (n : Needle) (path : List String) (cs : List Char) : Prop :=
  (path ∈ R.names → '/' ∉ cs) ∧ (path ∈ R.tails → ¬ n.Continues cs)

/-- What a reading says of a context. -/
structure Reading.Holds (R : Reading) (n : Needle) (context : Json) : Prop where
  value : ∀ path ∈ R.paths ++ R.loops, ∀ v, Leads context path v → v.Avoids n
  item : ∀ v, Leads context ["item"] v → v.Avoids n
  fits : ∀ path v, Leads context path v → R.Fits n path (stringify v).toList
  inner : ∀ path ∈ R.loops, ∀ items, Leads context path (.arr items) → ∀ item ∈ items,
    ∀ path v, Leads item path v → R.Fits n ("item" :: path) (stringify v).toList

section Contexts

variable {R : Reading} {n : Needle} {context v w : Json} {path : List String}

lemma leads_cons_iff {fields : Table Json} {segment : String} :
    Leads (.obj fields) (segment :: path) w ↔
      ∃ v, fields.get? segment = some v ∧ Leads v path w := by
  constructor
  · intro h
    cases h with
    | member hget h => exact ⟨_, hget, h⟩
  · rintro ⟨v, hget, h⟩
    exact .member hget h

lemma leads_loopContext_item {item : Json} {index : ℕ} :
    Leads (loopContext context item index) ("item" :: path) v ↔ Leads item path v := by
  rw [loopContext, leads_cons_iff]
  simp [Table.get?_cons]

lemma leads_of_outer {item : Json} {index : ℕ} (hpath : isOuter path = true)
    (h : Leads (loopContext context item index) path v) : Leads context path v := by
  cases path with
  | nil => cases hpath
  | cons segment rest =>
    simp only [isOuter, List.head?_cons, Option.any_some, Bool.and_eq_true, bne_iff_ne] at hpath
    rw [loopContext, leads_cons_iff, Table.get?_cons, if_neg hpath.1, Table.get?_cons,
      if_neg hpath.2] at h
    obtain ⟨w, hw, h⟩ := h
    cases context with
    | obj fields => exact .member hw h
    | _ => cases hw

/-- What follows a path stays within the texts of a value. -/
lemma avoids_of_leads (hv : v.Avoids n) (h : Leads v path w) : w.Avoids n := by
  induction h with
  | here => exact hv
  | member hget _ ih => exact ih (Json.Avoids.get? hv hget)
  | place _ _ hget _ ih => exact ih (Json.avoids_arr.1 hv _ (List.mem_of_getElem? hget))

lemma Reading.Holds.read (h : R.Holds n context) (hpath : R.reads path = true)
    (hv : Leads context path v) : v.Avoids n := by
  rw [Reading.reads, Bool.or_eq_true, List.contains_iff_mem] at hpath
  rcases hpath with hpath | hpath
  · exact h.value path (List.mem_append_left _ hpath) v hv
  · cases path with
    | nil => cases hpath
    | cons segment rest =>
      obtain rfl : segment = "item" := by simpa [isInItem] using hpath
      cases hv with
      | member hget hrest => exact avoids_of_leads (h.item _ (.member hget (.here _))) hrest
      | place hplace => exact absurd (hplace.digits 'i' (by decide)) (by decide)

lemma Reading.Holds.loop (h : R.Holds n context) (hR : R.isProper = true) (hpath : path ∈ R.loops)
    {items : List Json} (hitems : Leads context path (.arr items)) {item : Json} (hitem : item ∈ items)
    (index : ℕ) : R.Holds n (loopContext context item index) := by
  obtain ⟨hpaths, hothers⟩ := Bool.and_eq_true_iff.1 hR
  rw [List.all_eq_true] at hpaths hothers
  refine ⟨fun path hpath v hv => ?_, fun v hv => ?_, fun path v hv => ?_,
    fun path hpath items hitems => ?_⟩
  · exact h.value path hpath v (leads_of_outer (hpaths path hpath) hv)
  · rw [leads_loopContext_item] at hv
    have hlist := h.value _ (List.mem_append_right _ ‹_›) _ hitems
    exact avoids_of_leads (Json.avoids_arr.1 hlist item hitem) hv
  · have hfits (hknown : path ∈ R.names ++ R.tails) : R.Fits n path (stringify v).toList := by
      rcases Bool.or_eq_true_iff.1 (hothers path hknown) with hpath | hpath
      · exact h.fits path v (leads_of_outer hpath hv)
      · cases path with
        | nil => cases hpath
        | cons segment rest =>
          obtain rfl : segment = "item" := by simpa [isInItem] using hpath
          exact h.inner _ ‹_› items hitems item hitem rest v (leads_loopContext_item.1 hv)
    exact ⟨fun hname => (hfits (List.mem_append_left _ hname)).1 hname,
      fun htail => (hfits (List.mem_append_right _ htail)).2 htail⟩
  · exact h.inner path hpath items
      (leads_of_outer (hpaths path (List.mem_append_right _ hpath)) hitems)

lemma isLookup_iff {operand : String} : isLookup operand = true ↔ IsLookup operand := by
  simp only [isLookup, Bool.and_eq_true, Option.isNone_iff_eq_none, Bool.not_eq_true', and_assoc]
  exact ⟨fun h => ⟨h.1, h.2.1, h.2.2⟩, fun h => ⟨h.unquoted, h.no_numeral, h.no_keyword⟩⟩

lemma leads_or_null {path : String} (h : resolvePath path context = .ok v) :
    Leads context (segments path) v ∨ v = .null := by
  rw [resolvePath, lookup] at h
  rcases hf : follow context (segments path) with e | _ | w <;> rw [hf] at h <;> cases h
  · exact .inr rfl
  · exact .inl (leads_of_follow hf)

lemma Reading.Holds.resolve (h : R.Holds n context) {path : String}
    (hpath : R.reads (segments path) = true) (hv : resolvePath path context = .ok v) :
    v.Avoids n := by
  rcases leads_or_null hv with hv | rfl
  · exact h.read hpath hv
  · exact Json.avoids_null

lemma Reading.Holds.fits_resolve (h : R.Holds n context) {path : String}
    (hv : resolvePath path context = .ok v) : R.Fits n (segments path) (stringify v).toList := by
  rcases leads_or_null hv with hv | rfl
  · exact h.fits _ v hv
  · exact ⟨fun _ => by decide, fun _ hm => List.cons_ne_nil _ _ (List.prefix_nil.1 hm)⟩

end Contexts

/-- A reading that fits a needle, with helpers of which those that are known are the standard ones. -/
structure Reading.Serves (R : Reading) (n : Needle) (helpers : Table Helper) : Prop where
  proper : R.isProper = true
  head : R.head = n.head
  own : ∀ s, R.isOwn s = true → n.Avoids s.toList
  escapes : R.escapes = true → n.head = '<'
  helpers : ∀ name f, helpers.lookup name = some f → (name, f) ∈ standardHelpers

section Rendering

variable {R : Reading} {n : Needle} {helpers : Table Helper}

lemma Reading.Holds.items (h : R.Holds n context) (hR : R.isProper = true) {source : String}
    (hsource : R.loops.contains (segments source) = true) {items : List Json}
    (hitems : resolvePath source context = .ok (.arr items)) :
    ∀ item ∈ items, ∀ index, R.Holds n (loopContext context item index) := by
  intro item hitem index
  exact h.loop hR (List.contains_iff_mem.1 hsource) (leads_of_resolvePath hitems) hitem index

/-! How what is rendered begins. -/

mutual

lemma opening_render (node : Node) {context : Json} {text : String} {after : Opening}
    {more : List Char} (h : R.Holds n context) (hR : R.isProper = true)
    (hs : node.render helpers context = .ok text) (hmore : after.Holds n more) :
    (node.opening R after).Holds n (text.toList ++ more) := by
  match node with
  | .text s =>
    rw [Node.render, Except.ok.injEq] at hs
    rw [← hs]
    exact Opening.holds_ofText hmore s.toList
  | .interpolation path =>
    rw [Node.render, map_eq_ok_iff] at hs
    obtain ⟨v, hv, rfl⟩ := hs
    obtain ⟨hname, htail⟩ := h.fits_resolve hv
    rw [Node.opening]
    split_ifs with hknown
    · simp only [Bool.or_eq_true, Bool.and_eq_true, List.contains_iff_mem, bne_iff_ne, beq_iff_eq]
        at hknown
      rcases hknown with ⟨hpath, hafter⟩ | ⟨hpath, rfl⟩
      · have hslash := hname hpath
        generalize (stringify v).toList = cs at hslash
        cases cs with
        | nil => exact hmore.apart hafter
        | cons c cs => exact Needle.not_continues_cons fun hc => hslash (hc ▸ List.mem_cons_self)
      · exact Needle.not_continues_append (htail hpath) hmore
    · trivial
  | .conditional condition thenBranch elseBranch =>
    rw [Node.render, bind_eq_ok_iff] at hs
    obtain ⟨holds, -, hs⟩ := hs
    cases holds with
    | true => exact (opening_renderAll thenBranch h hR hs hmore).meet_left _
    | false => exact (opening_renderAll elseBranch h hR hs hmore).meet_right _
  | .loop source body =>
    rw [Node.opening]
    split_ifs with hsource
    · rw [Node.render, bind_eq_ok_iff] at hs
      obtain ⟨v, hv, hs⟩ := hs
      cases v with
      | arr items => exact opening_renderItems body items (h.items hR hsource hv) hR hs hmore
      | _ =>
        cases hs
        exact hmore.meet_left _
    · trivial
  | .call name args raw => trivial
  termination_by (sizeOf node, 0)

lemma opening_renderAll (nodes : List Node) {context : Json} {text : String} {after : Opening}
    {more : List Char} (h : R.Holds n context) (hR : R.isProper = true)
    (hs : renderAll helpers context nodes = .ok text) (hmore : after.Holds n more) :
    (openingOf R after nodes).Holds n (text.toList ++ more) := by
  match nodes with
  | [] =>
    rw [renderAll] at hs
    cases hs
    exact hmore
  | node :: rest =>
    obtain ⟨first, others, hfirst, hothers, rfl⟩ := renderAll_cons_eq_ok.1 hs
    rw [String.toList_append, List.append_assoc]
    exact opening_render node h hR hfirst (opening_renderAll rest h hR hothers hmore)
  termination_by (sizeOf nodes, 0)

lemma opening_renderItems (body : List Node) (items : List Json) {context : Json} {text : String}
    {index : ℕ} {after : Opening} {more : List Char}
    (h : ∀ item ∈ items, ∀ index, R.Holds n (loopContext context item index))
    (hR : R.isProper = true) (hs : renderItems helpers context body index items = .ok text)
    (hmore : after.Holds n more) :
    (after.meet (openingOf R .any body)).Holds n (text.toList ++ more) := by
  match items with
  | [] =>
    rw [renderItems] at hs
    cases hs
    exact hmore.meet_left _
  | item :: rest =>
    obtain ⟨first, others, hfirst, hothers, rfl⟩ := renderItems_cons_eq_ok.1 hs
    rw [String.toList_append, List.append_assoc]
    have hany : Opening.any.Holds n (others.toList ++ more) := trivial
    exact (opening_renderAll body (h item List.mem_cons_self index) hR hfirst hany).meet_right _
  termination_by (sizeOf body, items.length + 1)

end

/-! What is rendered avoids the needle. -/

mutual

lemma avoids_render (node : Node) {context : Json} {text : String} {after : Opening}
    {more : List Char} (h : R.Holds n context) (hR : R.Serves n helpers)
    (hapart : node.isApart R after = true) (hs : node.render helpers context = .ok text)
    (hmore : after.Holds n more) (havoids : n.Avoids more) : n.Avoids (text.toList ++ more) := by
  match node with
  | .text s =>
    rw [Node.render, Except.ok.injEq] at hs
    simp only [Node.isApart, Bool.and_eq_true, Bool.or_eq_true, bne_iff_ne] at hapart
    rw [← hs]
    refine (hR.own s hapart.1.1).append havoids (Needle.apart_of_settled (hR.head ▸ hapart.1.2) fun hlast => ?_)
    exact hmore.apart (hapart.2.resolve_left (· (hR.head ▸ hlast)))
  | .interpolation path =>
    rw [Node.render, map_eq_ok_iff] at hs
    obtain ⟨v, hv, rfl⟩ := hs
    simp only [Node.isApart, Bool.and_eq_true, Bool.or_eq_true, bne_iff_ne, beq_iff_eq,
      List.contains_iff_mem] at hapart
    refine (avoids_stringify (h.resolve hapart.1 hv)).append havoids ?_
    rcases hapart.2 with rfl | ⟨hname, hafter⟩
    · exact Needle.apart_of_stop hmore
    · have hslash := (h.fits_resolve hv).1 hname
      exact Needle.apart_of_settled (Needle.isSettled_of_notMem (.inl rfl) hslash) fun _ => hmore.apart hafter
  | .conditional condition thenBranch elseBranch =>
    rw [Node.render, bind_eq_ok_iff] at hs
    obtain ⟨holds, -, hs⟩ := hs
    obtain ⟨hthen, helse⟩ := Bool.and_eq_true_iff.1 hapart
    cases holds with
    | true =>
      exact avoids_renderAll thenBranch h hR hthen hs hmore havoids
    | false =>
      exact avoids_renderAll elseBranch h hR helse hs hmore havoids
  | .loop source body =>
    rw [Node.render, bind_eq_ok_iff] at hs
    obtain ⟨v, hv, hs⟩ := hs
    obtain ⟨hsource, hbody⟩ := Bool.and_eq_true_iff.1 hapart
    cases v with
    | arr items =>
      exact avoids_renderItems body items (h.items hR.proper hsource hv) hR hbody hs hmore havoids
    | _ =>
      cases hs
      exact havoids
  | .call name args raw =>
    simp only [Node.isApart, Bool.and_eq_true, beq_iff_eq] at hapart
    obtain ⟨⟨rfl, hraw⟩, hcall⟩ := hapart
    suffices htext : n.Avoids text.toList from htext.append havoids (Needle.apart_of_stop hmore)
    rw [Node.render] at hs
    cases hname : helpers.lookup name with
    | none =>
      rw [hname, Except.ok.injEq] at hs
      exact hs ▸ hR.own raw hraw
    | some f =>
      rw [hname] at hs
      obtain ⟨vs, hvs, rfl⟩ := map_eq_ok_iff.1 hs
      cases args with
      | nil => cases hcall
      | cons path args =>
        simp only [Reading.isCallable, Bool.and_eq_true, Bool.or_eq_true, List.contains_iff_mem,
          beq_iff_eq] at hcall
        obtain ⟨⟨hmild, hlookup⟩, hread⟩ := hcall
        rw [List.mapM_cons] at hvs
        obtain ⟨v, hv, hvs⟩ := bind_eq_ok_iff.1 hvs
        obtain ⟨others, hothers, hvs⟩ := bind_eq_ok_iff.1 hvs
        cases hvs
        rw [resolveOperand_lookup (isLookup_iff.1 hlookup)] at hv
        exact avoids_call (hR.helpers name f hname) hmild hothers
          (hread.imp (fun hread => h.resolve hread hv)
            fun hescape => ⟨hescape.2, hR.escapes hescape.1⟩)
  termination_by (sizeOf node, 0)

lemma avoids_renderAll (nodes : List Node) {context : Json} {text : String} {after : Opening}
    {more : List Char} (h : R.Holds n context) (hR : R.Serves n helpers)
    (hapart : areApart R after nodes = true) (hs : renderAll helpers context nodes = .ok text)
    (hmore : after.Holds n more) (havoids : n.Avoids more) : n.Avoids (text.toList ++ more) := by
  match nodes with
  | [] =>
    rw [renderAll] at hs
    cases hs
    exact havoids
  | node :: rest =>
    obtain ⟨first, others, hfirst, hothers, rfl⟩ := renderAll_cons_eq_ok.1 hs
    obtain ⟨hnode, hrest⟩ := Bool.and_eq_true_iff.1 hapart
    rw [String.toList_append, List.append_assoc]
    exact avoids_render node h hR hnode hfirst
      (opening_renderAll rest h hR.proper hothers hmore)
      (avoids_renderAll rest h hR hrest hothers hmore havoids)
  termination_by (sizeOf nodes, 0)

lemma avoids_renderItems (body : List Node) (items : List Json) {context : Json} {text : String}
    {index : ℕ} {after : Opening} {more : List Char}
    (h : ∀ item ∈ items, ∀ index, R.Holds n (loopContext context item index))
    (hR : R.Serves n helpers)
    (hapart : areApart R (after.meet (openingOf R .any body)) body = true)
    (hs : renderItems helpers context body index items = .ok text)
    (hmore : after.Holds n more) (havoids : n.Avoids more) : n.Avoids (text.toList ++ more) := by
  match items with
  | [] =>
    rw [renderItems] at hs
    cases hs
    exact havoids
  | item :: rest =>
    obtain ⟨first, others, hfirst, hothers, rfl⟩ := renderItems_cons_eq_ok.1 hs
    obtain ⟨hitem, hrest⟩ := List.forall_mem_cons.1 h
    rw [String.toList_append, List.append_assoc]
    exact avoids_renderAll body (hitem index) hR hapart hfirst
      (opening_renderItems body rest hrest hR.proper hothers hmore)
      (avoids_renderItems body rest hrest hR hapart hothers hmore havoids)
  termination_by (sizeOf body, items.length + 1)

end

lemma avoids_rendered {nodes : List Node} {context : Json} {text : String} (h : R.Holds n context)
    (hR : R.Serves n helpers) (hapart : areApart R .stop nodes = true)
    (hs : renderAll helpers context nodes = .ok text) : n.Avoids text.toList := by
  have hend : Opening.stop.Holds n [] := fun _ hc => by cases hc
  have havoids := avoids_renderAll nodes h hR hapart hs hend Needle.avoids_nil
  rwa [List.append_nil] at havoids

end Rendering

end ViewWriter.Template

/-! Templates without what they write under a condition. Where the condition is not met, nothing else is
written without it. -/

namespace ViewWriter.Template

open ViewWriter.Text

mutual

/-- A node without what it writes if a condition is met. -/
def Node.without (condition : Condition) : Node → List Node
  | .conditional c thenBranch elseBranch =>
    if c = condition then withoutAll condition elseBranch
    else [.conditional c (withoutAll condition thenBranch) (withoutAll condition elseBranch)]
  | .loop source body => [.loop source (withoutAll condition body)]
  | .text s => [.text s]
  | .interpolation path => [.interpolation path]
  | .call name args raw => [.call name args raw]

def withoutAll (condition : Condition) : List Node → List Node
  | [] => []
  | n :: rest => n.without condition ++ withoutAll condition rest

end

/-- What is under a name does not count as given, if there is anything. -/
structure Lacks (key : String) (context : Json) : Prop where
  lookup : isLookup key = true
  outer : isOuter (segments (trimmed key)) = true
  value : ∀ v, Leads context (segments (trimmed key)) v → v.isGiven = false

section Rendering

variable {helpers : Table Helper} {context : Json} {key : String}

lemma Lacks.loop (h : Lacks key context) (item : Json) (index : ℕ) :
    Lacks key (loopContext context item index) :=
  ⟨h.lookup, h.outer, fun v hv => h.value v (leads_of_outer h.outer hv)⟩

lemma Lacks.eval (h : Lacks key context) {b : Bool}
    (hb : (Condition.holds key).eval context = .ok b) : b = false := by
  rw [Condition.eval, resolveOperand_lookup (isLookup_iff.1 h.lookup), map_eq_ok_iff] at hb
  obtain ⟨v, hv, rfl⟩ := hb
  rcases leads_or_null hv with hv | rfl
  · exact h.value v hv
  · rfl

mutual

lemma render_without (node : Node) {context : Json} {text : String} (h : Lacks key context)
    (hs : node.render helpers context = .ok text) :
    renderAll helpers context (node.without (.holds key)) = .ok text := by
  match node with
  | .text _ => rwa [Node.without, renderAll_singleton]
  | .interpolation _ => rwa [Node.without, renderAll_singleton]
  | .call _ _ _ => rwa [Node.without, renderAll_singleton]
  | .conditional c thenBranch elseBranch =>
    rw [Node.render, bind_eq_ok_iff] at hs
    obtain ⟨b, hb, hs⟩ := hs
    rw [Node.without]
    split_ifs with hc
    · subst hc
      obtain rfl := h.eval hb
      exact renderAll_without elseBranch h hs
    · rw [renderAll_singleton, Node.render, bind_eq_ok_iff]
      refine ⟨b, hb, ?_⟩
      cases b with
      | true => exact renderAll_without thenBranch h hs
      | false => exact renderAll_without elseBranch h hs
  | .loop source body =>
    rw [Node.render, bind_eq_ok_iff] at hs
    obtain ⟨v, hv, hs⟩ := hs
    rw [Node.without, renderAll_singleton, Node.render, bind_eq_ok_iff]
    refine ⟨v, hv, ?_⟩
    cases v with
    | arr items => exact renderItems_without body items h hs
    | _ => exact hs
  termination_by (sizeOf node, 0)

/-- Where the condition is not met, what is written only if it is can be left out. -/
lemma renderAll_without (nodes : List Node) {context : Json} {text : String} (h : Lacks key context)
    (hs : renderAll helpers context nodes = .ok text) :
    renderAll helpers context (withoutAll (.holds key) nodes) = .ok text := by
  match nodes with
  | [] => exact hs
  | node :: rest =>
    obtain ⟨first, others, hfirst, hothers, rfl⟩ := renderAll_cons_eq_ok.1 hs
    exact renderAll_append_eq_ok.2
      ⟨first, others, render_without node h hfirst, renderAll_without rest h hothers, rfl⟩
  termination_by (sizeOf nodes, 0)

lemma renderItems_without (body : List Node) (items : List Json) {context : Json} {text : String}
    {index : ℕ} (h : Lacks key context)
    (hs : renderItems helpers context body index items = .ok text) :
    renderItems helpers context (withoutAll (.holds key) body) index items = .ok text := by
  match items with
  | [] =>
    rw [renderItems] at hs ⊢
    exact hs
  | item :: rest =>
    obtain ⟨first, others, hfirst, hothers, rfl⟩ := renderItems_cons_eq_ok.1 hs
    exact renderItems_cons_eq_ok.2 ⟨first, others, renderAll_without body (h.loop item index) hfirst,
      renderItems_without body rest h hothers, rfl⟩
  termination_by (sizeOf body, items.length + 1)

end

end Rendering

end ViewWriter.Template
