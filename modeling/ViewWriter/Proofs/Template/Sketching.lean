import ViewWriter.Proofs.Template.Compiling
import ViewWriter.Proofs.Template.Totality

/-! Nodes as sketches, in which texts are lists of characters. Whether a source spells a sketch is
decided over such lists alone, as strings are decoded byte by byte, which takes too long for the longest
of the texts. -/

namespace ViewWriter.Template

open ViewWriter.Text ViewWriter.Template.Source

/-- A token as lists of characters. -/
inductive Piece where
  | text (value raw : List Char)
  | tag (t : Tag) (raw : List Char)

namespace Piece

def toToken : Piece → Token
  | text value raw => .text (String.ofList value) (String.ofList raw)
  | tag t raw => .tag t (String.ofList raw)

def ofText (cs : List Char) : Piece := text cs cs

def ofBody (body : List Char) : Piece :=
  let raw := '\x7b' :: '\x7b' :: body ++ ['\x7d', '\x7d']
  match tagBy (argumentsWithin (body.length + 1)) body with
  | some t => tag t raw
  | none => text raw raw

lemma toToken_ofBody (body : List Char) : (ofBody body).toToken = tokenWithin body := by
  rw [ofBody, tokenWithin]
  cases tagBy (argumentsWithin (body.length + 1)) body <;> rfl

end Piece

def scanPieces : ℕ → List Char → List Char → List Piece
  | 0, _, _ => []
  | n + 1, passed, cs =>
    let pending := if passed.isEmpty then [] else [Piece.ofText passed.reverse]
    match cs with
    | [] => pending
    | '\x7b' :: '\x7b' :: rest =>
      match untilClose rest with
      | some (body, after) => pending ++ .ofBody body :: scanPieces n [] after
      | none => scanPieces n ('\x7b' :: passed) ('\x7b' :: rest)
    | c :: rest => scanPieces n (c :: passed) rest

def Piece.startsLine : List Piece → Bool
  | [] => true
  | .text value _ :: earlier =>
    (value.reverse.takeWhile (· != '\n')).all isMargin && (value.contains '\n' || earlier.isEmpty)
  | _ => false

def Piece.endsLine : List Piece → Bool
  | [] => true
  | .text value _ :: later =>
    (value.takeWhile (· != '\n')).all (fun c => isMargin c || c == '\r') &&
      (value.contains '\n' || later.isEmpty)
  | _ => false

def Piece.isAlone (neighbour : List Piece) (before after : List Piece) : Bool :=
  match neighbour with
  | .tag t _ :: _ => t.isBlock && startsLine before && endsLine after
  | _ => false

def trimPieces (before : List Piece) : List Piece → List Piece
  | [] => []
  | .text value raw :: rest =>
    let here := Piece.text value raw
    let cs := if Piece.isAlone before (before.drop 1) (here :: rest) then afterFirstBreak value else value
    let cs := if Piece.isAlone rest (here :: before) (rest.drop 1) then uptoLastBreak cs else cs
    if cs.isEmpty then trimPieces (here :: before) rest
    else .text cs raw :: trimPieces (here :: before) rest
  | p :: rest => p :: trimPieces (p :: before) rest

/-- A node as lists of characters. -/
inductive Sketch where
  | text (cs : List Char)
  | interpolation (path : List Char)
  | conditional (condition : Condition) (thenBranch elseBranch : List Sketch)
  | loop (source : List Char) (body : List Sketch)
  | call (name : List Char) (args : List (List Char)) (raw : List Char)

mutual

def Sketch.toNode : Sketch → Node
  | .text cs => .text (String.ofList cs)
  | .interpolation path => .interpolation (String.ofList path)
  | .conditional condition thenBranch elseBranch =>
    .conditional condition (toNodes thenBranch) (toNodes elseBranch)
  | .loop source body => .loop (String.ofList source) (toNodes body)
  | .call name args raw =>
    .call (String.ofList name) (args.map String.ofList) (String.ofList raw)

def toNodes : List Sketch → List Node
  | [] => []
  | s :: rest => s.toNode :: toNodes rest

end

mutual

def Node.sketch : Node → Sketch
  | .text s => .text s.toList
  | .interpolation path => .interpolation path.toList
  | .conditional condition thenBranch elseBranch =>
    .conditional condition (sketches thenBranch) (sketches elseBranch)
  | .loop source body => .loop source.toList (sketches body)
  | .call name args raw => .call name.toList (args.map String.toList) raw.toList

def sketches : List Node → List Sketch
  | [] => []
  | n :: rest => n.sketch :: sketches rest

end

lemma sketches_append (nodes more : List Node) :
    sketches (nodes ++ more) = sketches nodes ++ sketches more := by
  induction nodes with
  | nil => rfl
  | cons n rest ih => rw [List.cons_append, sketches, sketches, ih, List.cons_append]

mutual

lemma toNode_sketch (n : Node) : n.sketch.toNode = n := by
  match n with
  | .text s => simp [Node.sketch, Sketch.toNode]
  | .interpolation path => simp [Node.sketch, Sketch.toNode]
  | .conditional condition thenBranch elseBranch =>
    rw [Node.sketch, Sketch.toNode, toNodes_sketches thenBranch, toNodes_sketches elseBranch]
  | .loop source body => rw [Node.sketch, Sketch.toNode, toNodes_sketches body, String.ofList_toList]
  | .call name args raw => simp [Node.sketch, Sketch.toNode]

lemma toNodes_sketches (nodes : List Node) : toNodes (sketches nodes) = nodes := by
  match nodes with
  | [] => rfl
  | n :: rest => rw [sketches, toNodes, toNode_sketch n, toNodes_sketches rest]

end

/-- What is left of pieces after one tag. -/
def dropTag? (t : Tag) : List Piece → Option (List Piece)
  | .tag t' _ :: rest => if t' = t then some rest else none
  | _ => none

mutual

/-- What is left of pieces after those that spell a sketch. -/
def Sketch.drop? : Sketch → List Piece → Option (List Piece)
  | .text cs, .text value _ :: rest => if value = cs then some rest else none
  | .interpolation path, .tag (.path p) _ :: rest => if p.toList = path then some rest else none
  | .call name args raw, .tag (.helper name' args') raw' :: rest =>
    if name'.toList = name ∧ args'.map String.toList = args ∧ raw' = raw then some rest else none
  | .conditional condition thenBranch elseBranch, .tag (.ifOpen c) _ :: rest =>
    if Condition.parse c = condition then
      (dropAll? thenBranch rest).bind fun rest =>
        if elseBranch.isEmpty then dropTag? .ifClose rest
        else (dropTag? .ifElse rest).bind fun rest =>
          (dropAll? elseBranch rest).bind (dropTag? .ifClose)
    else none
  | .loop source body, .tag (.eachOpen s) _ :: rest =>
    if s.toList = source then (dropAll? body rest).bind (dropTag? .eachClose) else none
  | _, _ => none

def dropAll? : List Sketch → List Piece → Option (List Piece)
  | [], ps => some ps
  | s :: rest, ps => (s.drop? ps).bind (dropAll? rest)

end

section Tokens

lemma map_scanPieces (n : ℕ) (passed cs : List Char) :
    (scanPieces n passed cs).map Piece.toToken = scanWithin n passed cs := by
  induction n generalizing passed cs with
  | zero => rfl
  | succ n ih =>
    have hpending : (if passed.isEmpty then [] else [Piece.ofText passed.reverse]).map Piece.toToken =
        if passed.isEmpty then [] else [Token.ofText passed.reverse] := by
      split_ifs <;> rfl
    cases cs with
    | nil => exact hpending
    | cons c rest =>
      by_cases hopen : ∃ inside, c = '\x7b' ∧ rest = '\x7b' :: inside
      · obtain ⟨inside, rfl, rfl⟩ := hopen
        cases hclose : untilClose inside with
        | none =>
          simp only [scanPieces, scanWithin, hclose]
          exact ih _ _
        | some r =>
          simp only [scanPieces, scanWithin, hclose]
          rw [List.map_append, hpending, List.map_cons, Piece.toToken_ofBody, ih]
      · have hpieces : scanPieces (n + 1) passed (c :: rest) = scanPieces n (c :: passed) rest := by
          rw [scanPieces.eq_4]
          exact fun inside hc hrest => hopen ⟨inside, hc, hrest⟩
        have htokens : scanWithin (n + 1) passed (c :: rest) = scanWithin n (c :: passed) rest := by
          rw [scanWithin.eq_4]
          exact fun inside hc hrest => hopen ⟨inside, hc, hrest⟩
        rw [hpieces, htokens]
        exact ih _ _

lemma startsLine_map (ps : List Piece) : startsLine (ps.map Piece.toToken) = Piece.startsLine ps := by
  match ps with
  | [] => rfl
  | .tag _ _ :: _ => rfl
  | .text value raw :: earlier => simp [Piece.toToken, startsLine, Piece.startsLine]

lemma endsLine_map (ps : List Piece) : endsLine (ps.map Piece.toToken) = Piece.endsLine ps := by
  match ps with
  | [] => rfl
  | .tag _ _ :: _ => rfl
  | .text value raw :: later => simp [Piece.toToken, endsLine, Piece.endsLine]

lemma isAlone_map (neighbour before after : List Piece) :
    isAlone (neighbour.map Piece.toToken) (before.map Piece.toToken) (after.map Piece.toToken) =
      Piece.isAlone neighbour before after := by
  match neighbour with
  | [] => rfl
  | .text _ _ :: _ => rfl
  | .tag t raw :: _ =>
    simp only [List.map_cons, Piece.toToken, isAlone, startsLine_map, endsLine_map, Piece.isAlone]

lemma map_trimPieces (before ps : List Piece) :
    (trimPieces before ps).map Piece.toToken =
      trimLines (before.map Piece.toToken) (ps.map Piece.toToken) := by
  induction ps generalizing before with
  | nil => rfl
  | cons p rest ih =>
    cases p with
    | tag t raw =>
      have hrest := ih (.tag t raw :: before)
      simp only [List.map_cons, Piece.toToken] at hrest
      simp only [trimPieces, List.map_cons, Piece.toToken, trimLines, hrest]
    | text value raw =>
      have hrest := ih (.text value raw :: before)
      have hbefore := isAlone_map before (before.drop 1) (.text value raw :: rest)
      have hafter := isAlone_map rest (.text value raw :: before) (rest.drop 1)
      simp only [List.map_cons, List.map_drop, Piece.toToken] at hrest hbefore hafter
      simp only [trimPieces, List.map_cons, Piece.toToken, trimLines, hbefore, hafter,
        String.toList_ofList]
      split_ifs <;> simp only [List.map_cons, Piece.toToken, hrest]

lemma eq_of_dropTag? {t : Tag} {ps qs : List Piece} (h : dropTag? t ps = some qs) :
    ∃ raw, ps = .tag t raw :: qs := by
  match ps with
  | .tag t' raw :: rest =>
    rw [dropTag?] at h
    split_ifs at h with ht
    cases h
    exact ⟨raw, by rw [ht]⟩

mutual

lemma spells_of_drop? (s : Sketch) {ps qs : List Piece} (h : s.drop? ps = some qs) {F : List Node}
    {ts : List Token} (hF : Spells false F ts) : ∃ read,
      ps.map Piece.toToken = read ++ qs.map Piece.toToken ∧ Spells false (s.toNode :: F) (read ++ ts) := by
  match s, ps with
  | .text cs, .text value raw :: rest =>
    rw [Sketch.drop?] at h
    obtain ⟨hvalue, h⟩ := Option.ite_none_right_eq_some.1 h
    cases h
    exact ⟨[_], rfl, hvalue ▸ .text _ _ hF⟩
  | .interpolation path, .tag (.path p) raw :: rest =>
    rw [Sketch.drop?] at h
    obtain ⟨hpath, h⟩ := Option.ite_none_right_eq_some.1 h
    cases h
    refine ⟨[_], rfl, ?_⟩
    rw [Sketch.toNode, ← hpath, String.ofList_toList]
    exact .interpolation _ _ hF
  | .call name args raw, .tag (.helper name' args') raw' :: rest =>
    rw [Sketch.drop?] at h
    obtain ⟨hcall, h⟩ := Option.ite_none_right_eq_some.1 h
    cases h
    obtain ⟨rfl, rfl, rfl⟩ := hcall
    refine ⟨[_], rfl, ?_⟩
    simp only [Sketch.toNode, String.ofList_toList, List.map_map, Function.comp_def, List.map_id']
    exact .call _ _ _ hF
  | .conditional condition thenBranch elseBranch, .tag (.ifOpen c) raw :: rest =>
    rw [Sketch.drop?] at h
    obtain ⟨hcondition, h⟩ := Option.ite_none_right_eq_some.1 h
    obtain ⟨others, hthen, h⟩ := Option.bind_eq_some_iff.1 h
    obtain ⟨read, hread, hthenF⟩ := spells_of_dropAll? thenBranch hthen
    rw [Sketch.toNode, ← hcondition]
    split_ifs at h with helse
    · obtain ⟨closeRaw, rfl⟩ := eq_of_dropTag? h
      rw [List.isEmpty_iff.1 helse]
      refine ⟨.tag (.ifOpen c) (String.ofList raw) ::
        (read ++ [.tag .ifClose (String.ofList closeRaw)]), ?_, ?_⟩
      · simp [Piece.toToken, hread]
      · rw [List.cons_append, List.append_assoc]
        exact .conditionalOnly c _ _ hthenF hF
    · obtain ⟨afterElse, helseTag, hmore⟩ := Option.bind_eq_some_iff.1 h
      obtain ⟨beforeClose, helse, hclose⟩ := Option.bind_eq_some_iff.1 hmore
      obtain ⟨elseRaw, rfl⟩ := eq_of_dropTag? helseTag
      obtain ⟨closeRaw, rfl⟩ := eq_of_dropTag? hclose
      obtain ⟨more, hmore, helseF⟩ := spells_of_dropAll? elseBranch helse
      refine ⟨.tag (.ifOpen c) (String.ofList raw) :: (read ++ .tag .ifElse (String.ofList elseRaw) ::
        (more ++ [.tag .ifClose (String.ofList closeRaw)])), ?_, ?_⟩
      · simp [Piece.toToken, hread, hmore]
      · simp only [List.cons_append, List.append_assoc, List.nil_append]
        exact .conditional c _ _ _ hthenF helseF hF
  | .loop source body, .tag (.eachOpen name) raw :: rest =>
    rw [Sketch.drop?] at h
    obtain ⟨hsource, h⟩ := Option.ite_none_right_eq_some.1 h
    obtain ⟨others, hbody, h⟩ := Option.bind_eq_some_iff.1 h
    obtain ⟨closeRaw, rfl⟩ := eq_of_dropTag? h
    obtain ⟨read, hread, hbodyF⟩ := spells_of_dropAll? body hbody
    refine ⟨.tag (.eachOpen name) (String.ofList raw) ::
      (read ++ [.tag .eachClose (String.ofList closeRaw)]), ?_, ?_⟩
    · simp [Piece.toToken, hread]
    · rw [Sketch.toNode, ← hsource, String.ofList_toList, List.cons_append, List.append_assoc]
      exact .loop _ _ _ hbodyF hF

lemma spells_of_dropAll? (ss : List Sketch) {ps qs : List Piece} (h : dropAll? ss ps = some qs) :
    ∃ read, ps.map Piece.toToken = read ++ qs.map Piece.toToken ∧ Spells false (toNodes ss) read := by
  match ss with
  | [] =>
    cases h
    exact ⟨[], rfl, .nil⟩
  | s :: rest =>
    rw [dropAll?, Option.bind_eq_some_iff] at h
    obtain ⟨more, hs, hrest⟩ := h
    obtain ⟨others, hothers, hF⟩ := spells_of_dropAll? rest hrest
    obtain ⟨read, hread, hfirst⟩ := spells_of_drop? s hs hF
    exact ⟨read ++ others, by rw [hread, hothers, List.append_assoc], hfirst⟩

end

end Tokens

/-- Whether a source spells nodes, by a number of steps. -/
def isSketchOf (ss : List Sketch) (cs : List Char) : Bool :=
  match dropAll? ss (trimPieces [] (scanPieces (cs.length + 1) [] cs)) with
  | some [] => true
  | _ => false

lemma compile_of_sketch {lines : List String} {F : List Node}
    (h : isSketchOf (sketches F) (sourceChars lines) = true) : compile (ofLines lines) = F := by
  rw [isSketchOf] at h
  split at h
  · rename_i hdrop
    obtain ⟨read, hread, hF⟩ := spells_of_dropAll? _ hdrop
    rw [map_trimPieces, map_scanPieces, scanWithin_eq (Nat.lt_succ_self _), ← toList_ofLines,
      List.map_nil, ← tokenize, List.append_nil] at hread
    rw [toNodes_sketches] at hF
    rw [compile, hread]
    exact parse_of_spells hF
  · cases h

end ViewWriter.Template
