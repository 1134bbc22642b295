import ViewWriter.Name.Identifier
import ViewWriter.Table
import ViewWriter.Text.Split

/-!
Options and operands among the words of a command line. Long options may be cut short where one
alone begins like that, short ones may share a word, and after `--` there are operands only.
-/

namespace ViewWriter.CommandLine

open ViewWriter.Text

/-- Why a command line is not carried out. -/
inductive Exit where
  | help
  | usage
deriving DecidableEq, Repr

def Exit.code : Exit → Nat
  | help => 0
  | usage => 2

inductive Role where
  | flag
  | value
  | help
deriving DecidableEq, Repr

structure Switch where
  key : String
  spellings : List String
  role : Role
deriving DecidableEq, Repr

inductive Operands where
  | none
  | one
  | many
  /-- a name and all words after it -/
  | command
deriving DecidableEq, Repr

/-- What a command takes. -/
structure Form where
  switches : List Switch
  operands : Operands
  /-- keys of options that exclude each other -/
  exclusive : List String := []

/-- An option as it stands in a word, perhaps with a text joined to it, after an equals sign or
directly. -/
structure Written where
  switch : Switch
  long : Bool
  joined : Option (Bool × List Char)

inductive Kind where
  | operand
  | separator
  | option (w : Written)
  | unknown

namespace Form

/-- All spellings with their options. -/
def spellings (f : Form) : List (List Char × Switch) :=
  f.switches.flatMap fun s => s.spellings.map fun t => (t.toList, s)

def find? (f : Form) (spelling : List Char) : Option Switch := f.spellings.lookup spelling

def isLong : List Char → Bool
  | '-' :: '-' :: _ => true
  | _ => false

/-- The options that a long word may be short for. -/
def longCandidates (f : Form) (word : List Char) : List Written :=
  let (name, value) := cut '=' word
  (f.spellings.filter fun e => name.isPrefixOf e.1).map fun e =>
    ⟨e.2, isLong e.1, value.map fun v => (true, v)⟩

/-- The options that a word with one hyphen may begin with or be short for. -/
def shortCandidates (f : Form) (word : List Char) : List Written :=
  f.spellings.filterMap fun e =>
    if e.1 == word.take 2 then some ⟨e.2, isLong e.1, some (false, word.drop 2)⟩
    else if word.isPrefixOf e.1 then some ⟨e.2, isLong e.1, none⟩
    else none

/-- An option spelled in full, with or without a value after an equals sign. -/
def complete? (f : Form) (word : List Char) : Option Written :=
  match f.find? word, cut '=' word with
  | some s, _ => some ⟨s, isLong word, none⟩
  | none, (name, some value) => (f.find? name).map fun s => ⟨s, isLong name, some (true, value)⟩
  | none, (_, none) => none

def areDigits (cs : List Char) : Bool := !cs.isEmpty && cs.all isDecimal

def isNegativeNumber (word : List Char) : Bool :=
  match Name.withoutFinalBreak word with
  | '-' :: number => match cut '.' number with
    | (digits, none) => areDigits digits
    | (digits, some places) => digits.all isDecimal && areDigits places
  | _ => false

/-- What a word is by itself. Words with a hyphen in front are operands where they are numbers or
hold a space. -/
def kindOf (f : Form) (word : List Char) : Except Exit Kind :=
  match word with
  | '-' :: _ :: _ =>
    match f.complete? word with
    | some w => .ok (.option w)
    | none => match if isLong word then f.longCandidates word else f.shortCandidates word with
      | [w] => .ok (.option w)
      | _ :: _ :: _ => .error .usage
      | [] => .ok (if isNegativeNumber word || word.contains ' ' then .operand else .unknown)
  | _ => .ok .operand

def kinds (f : Form) : List String → Except Exit (List (String × Kind))
  | [] => .ok []
  | word :: rest =>
    if word == "--" then .ok ((word, .separator) :: rest.map fun w => (w, .operand))
    else do
      let kind ← f.kindOf word.toList
      let others ← f.kinds rest
      return (word, kind) :: others

/-- The options in one word: those that are complete, and what is left open by the last. -/
structure Cluster where
  taken : List (Switch × String)
  /-- an option whose value is the next word -/
  pending : Option Switch := none
  /-- the word holds more than options -/
  excess : Bool := false

/-- The text joined to a short option: more options, or a value after an equals sign. -/
def joinedTo : List Char → Option (Bool × List Char)
  | [] => none
  | '=' :: rest => some (true, rest)
  | rest => some (false, rest)

/-- The options in a word; `fuel` bounds the short ones. -/
def cluster (f : Form) (fuel : Nat) (w : Written) : Except Exit Cluster :=
  match w.switch.role, w.joined with
  | .value, none => .ok { taken := [], pending := some w.switch }
  | .value, some (_, text) => .ok { taken := [(w.switch, String.ofList text)] }
  | _, none => .ok { taken := [(w.switch, "")] }
  | _, some (_, []) => .error .usage
  | _, some (equals, c :: rest) =>
    if w.long || equals || c == '-' then .error .usage
    else match f.find? ['-', c], fuel with
      | some s, fuel + 1 => do
        let more ← f.cluster fuel ⟨s, false, joinedTo rest⟩
        return { more with taken := (w.switch, "") :: more.taken }
      | _, _ => .ok { taken := [(w.switch, "")], excess := true }

end Form

/-- What a command line holds. -/
structure Parsed where
  options : Table String := []
  operands : List String := []
  /-- there are words that nothing takes -/
  excess : Bool := false

namespace Parsed

def has (p : Parsed) (key : String) : Bool := p.options.has key

def get? (p : Parsed) (key : String) : Option String := p.options.get? key

/-- Takes an option; the last of several values counts. -/
def take (f : Form) (p : Parsed) (o : Switch × String) : Except Exit Parsed :=
  if o.1.role == .help then .error .help
  else if f.exclusive.contains o.1.key && f.exclusive.any fun k => k != o.1.key && p.has k then
    .error .usage
  else .ok { p with options := p.options.set o.1.key o.2 }

end Parsed

namespace Operands

def isPlain : String × Kind → Bool
  | (_, .operand) => true
  | (_, .separator) => true
  | _ => false

def isOperand : String × Kind → Bool
  | (_, .operand) => true
  | _ => false

def isSeparator : String × Kind → Bool
  | (_, .separator) => true
  | _ => false

/-- The operands at the start of the words, and the words after them. -/
def split? (o : Operands) (words : List (String × Kind)) :
    Option (List String × List (String × Kind)) :=
  match o, words.dropWhile isSeparator with
  | .none, _ | _, [] => Option.none
  | .one, w :: rest => if isOperand w then some ([w.1], rest.dropWhile isSeparator) else Option.none
  | .many, w :: rest =>
    if isOperand w then
      some (((w :: rest.takeWhile isPlain).filter isOperand).map (·.1), rest.dropWhile isPlain)
    else Option.none
  | .command, w :: _ => if isOperand w then some (words.map (·.1), []) else Option.none

def required : Operands → Bool
  | one | many => true
  | _ => false

end Operands

namespace Form

/-- Reads the words from left to right; `open` operands were not met yet. -/
def readWords (f : Form) (fuel : Nat) (isOpen : Bool) (p : Parsed) :
    List (String × Kind) → Except Exit Parsed
  | [] => if isOpen && f.operands.required then .error .usage else .ok p
  | w :: rest =>
    match fuel with
    | 0 => .ok p
    | fuel + 1 =>
      match w.2 with
      | .option written => do
        let c ← f.cluster w.1.length written
        let p := { p with excess := p.excess || c.excess }
        match c.pending, rest with
        | none, _ => f.readWords fuel isOpen (← c.taken.foldlM (Parsed.take f) p) rest
        | some s, (value, .operand) :: rest =>
          f.readWords fuel isOpen (← (c.taken ++ [(s, value)]).foldlM (Parsed.take f) p) rest
        | some _, _ => throw .usage
      | .unknown => f.readWords fuel isOpen { p with excess := true } rest
      | _ =>
        match if isOpen then f.operands.split? (w :: rest) else none with
        | some (operands, rest) => f.readWords fuel false { p with operands } rest
        | none => f.readWords fuel isOpen { p with excess := true } rest

def read (f : Form) (words : List String) : Except Exit Parsed := do
  let kinds ← f.kinds words
  f.readWords kinds.length true {} kinds

end Form

end ViewWriter.CommandLine
